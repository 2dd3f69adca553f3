import Colloquy.Proofs.Number.Bits
import Colloquy.Proofs.Number.Nearest

/-!
# Results that are finite

Arithmetic unpacks a double into sign, mantissa and exponent, works on these, and packs the result.
What is packed is finite when its exponent is one that doubles have (`isFinite_pack`), and every
finite double was unpacked from such a one (`fits_unpack`). Main statements: a finite double
stays finite when it is negated (`isFinite_neg`) and when it is divided by a finite double not below
two (`isFinite_div`), and so is every integer below `2 ^ 64`, rounded (`isFinite_ofNat`).

Rounding may carry into one more digit, so it can raise the exponent by one. A quotient by two or
more leaves room for that (`fits_roundWithAccuracy`).
-/

namespace Colloquy.Binary64

open Float.Model (Format UnpackedFloat totalExponent)
open Float.Model.UnpackedFloat

/-! ## Packing and unpacking -/

/-- Zero, or digits and an exponent that doubles have. -/
inductive Fits : UnpackedFloat → Prop
  | zero (sign : Sign) : Fits (.zero sign)
  | finite (sign : Sign) {mantissa : Nat} {exponent : Int} (hpos : 0 < mantissa)
    (hmantissa : mantissa < 2 ^ 53) (hexponent : exponent ≤ 971) :
    Fits (.finite sign mantissa exponent hpos)

/-- The pattern of a double. -/
def pattern (x : Float) : Pattern := x.toBits.toBitVec

/-- A double is finite unless all bits of its exponent are set. -/
theorem isFinite_iff_exponent (x : Float) :
    isFinite x = true ↔ (unpackExponent (pattern x)).toNat < 2047 := by
  have hbits : x.toBits.toNat < 2 ^ 64 := x.toBits.toNat_lt
  rw [toNat_unpackExponent]
  unfold isFinite positionOf infinity pattern
  rw [decide_eq_true_eq]
  show x.toBits.toNat % 2 ^ 63 < 2047 * 2 ^ 52 ↔ x.toBits.toNat / 2 ^ 52 % 2 ^ 11 < 2047
  omega

theorem isFinite_pack {f : UnpackedFloat} (h : Fits f) : isFinite (.ofModel (.pack f)) = true := by
  rw [isFinite_iff_exponent]
  show (unpackExponent (pack .binary64 f)).toNat < 2047
  cases h with
  | zero sign =>
    show (unpackExponent (packComponents .binary64 sign 0 0)).toNat < 2047
    rw [unpackExponent_packComponents]
    decide
  | @finite sign mantissa exponent hpos hmantissa hexponent =>
    have hbiased : (exponent + Format.binary64.exponentBias
        + Format.binary64.mantissaBitsWithoutImplicit).toNat < 2047 := by
      show (exponent + 1023 + 52).toNat < 2047
      omega
    unfold pack
    dsimp only
    generalize (exponent + Format.binary64.exponentBias
      + Format.binary64.mantissaBitsWithoutImplicit).toNat = biased at hbiased
    rw [if_neg (show ¬ 2 ^ 11 ≤ biased + 1 by omega)]
    split
    · rw [unpackExponent_packComponents, BitVec.toNat_ofNat]
      exact Nat.lt_of_le_of_lt (Nat.mod_le _ _) hbiased
    · rw [unpackExponent_packComponents]
      decide

/-- The digits of a normal double, with the leading one that its pattern leaves out. -/
theorem toNat_normalMantissa (digits : BitVec 52) :
    (1#1 ++ digits).toNat = 2 ^ 52 + digits.toNat := by
  rw [BitVec.toNat_append, Nat.shiftLeft_eq, Nat.mul_comm, ← Nat.two_pow_add_eq_or_of_lt digits.isLt]
  rfl

theorem fits_unpack {x : Float} (h : isFinite x = true) : Fits x.toModel.unpack := by
  rw [isFinite_iff_exponent] at h
  show Fits (unpack .binary64 (pattern x))
  generalize pattern x = bits at h
  have hdigits : (unpackMantissa bits).toNat < 2 ^ 52 := (unpackMantissa bits).isLt
  have hexponent : ((unpackExponent bits).toNat : Int) - (1023 + 52) ≤ 971 := by omega
  have hnotAll : unpackExponent bits ≠ -1#_ := by
    intro hall
    rw [hall] at h
    exact absurd h (by decide)
  unfold unpack
  dsimp only
  rw [if_neg hnotAll]
  split
  · next hsubnormal =>
    split
    · exact .zero _
    · refine .finite _ _ (by omega) ?_
      rw [hsubnormal]
      decide
  · refine .finite _ _ ?_ ?_
    · have hnormal := toNat_normalMantissa (unpackMantissa bits)
      show (1#1 ++ unpackMantissa bits).toNat < 2 ^ 53
      omega
    · exact hexponent

theorem isFinite_neg {x : Float} (h : isFinite x = true) : isFinite (-x) = true := by
  show isFinite (.ofModel (.pack (neg x.toModel.unpack))) = true
  apply isFinite_pack
  have hfits := fits_unpack h
  generalize x.toModel.unpack = f at hfits
  cases hfits with
  | zero sign => exact .zero _
  | finite sign hpos hmantissa hexponent => exact .finite _ hpos hmantissa hexponent

/-- A finite double equals itself. -/
theorem beq_self_of_isFinite {x : Float} (h : isFinite x = true) : (x == x) = true := by
  rw [Float.beq_self_iff]
  intro hnan
  rw [hnan] at h
  exact absurd h (by decide +kernel)

/-! ## Rounding -/

/-- Shifting right drops digits. -/
theorem mantissa_shiftRight (em : ExtendedMantissa) (n : Nat) :
    (em >>> n).mantissa = em.mantissa / 2 ^ n := by
  show (n.repeat ExtendedMantissa.shiftRightOne em).mantissa = _
  induction n with
  | zero =>
    rw [Nat.pow_zero, Nat.div_one]
    rfl
  | succ n ih =>
    show (n.repeat ExtendedMantissa.shiftRightOne em).mantissa / 2 = _
    rw [ih, Nat.div_div_eq_div_mul, Nat.pow_succ]

theorem roundedMantissa_le (em : ExtendedMantissa) : em.roundedMantissa ≤ em.mantissa + 1 := by
  unfold ExtendedMantissa.roundedMantissa Accuracy.roundToNearestEven
  split <;> omega

section Shift

variable (mantissa : Nat) (exponent : Int) (accuracy : Accuracy)

/-- The exponent after digits were dropped: the one before, or the least that leaves no more digits
than a mantissa has. -/
theorem shiftToTargetExponent_snd :
    (shiftToTargetExponent .binary64 mantissa exponent accuracy).2
      = max exponent (max (totalExponent mantissa exponent - 53) (-1074)) := by
  show exponent + ((max (totalExponent mantissa exponent - 53) (-1074) - exponent).toNat : Int) = _
  omega

theorem shiftToTargetExponent_fst :
    (shiftToTargetExponent .binary64 mantissa exponent accuracy).1.mantissa < 2 ^ 53 := by
  have hmantissa : (ExtendedMantissa.ofMantissaAndAccuracy mantissa accuracy).mantissa = mantissa := by
    unfold ExtendedMantissa.ofMantissaAndAccuracy
    split <;> rfl
  have hdropped : mantissa.log2 + 1 ≤
      53 + (max (totalExponent mantissa exponent - 53) (-1074) - exponent).toNat := by
    unfold totalExponent
    omega
  show (ExtendedMantissa.ofMantissaAndAccuracy mantissa accuracy
    >>> (max (totalExponent mantissa exponent - 53) (-1074) - exponent).toNat).mantissa < 2 ^ 53
  rw [mantissa_shiftRight, hmantissa]
  rw [Nat.div_lt_iff_lt_mul (Nat.two_pow_pos _), ← Nat.pow_add]
  exact Nat.lt_of_lt_of_le Nat.lt_log2_self (Nat.pow_le_pow_right (by decide) hdropped)

end Shift

/-- Where one more power of two would be in range, rounding stays in range. -/
theorem fits_roundWithAccuracy (sign : Sign) {mantissa : Nat} {exponent : Int} (accuracy : Accuracy)
    (hexponent : exponent ≤ 970) (htotal : totalExponent mantissa exponent ≤ 1023) :
    Fits (roundWithAccuracy .binary64 sign mantissa exponent accuracy) := by
  have hfirst := shiftToTargetExponent_snd mantissa exponent accuracy
  have hdigits := shiftToTargetExponent_fst mantissa exponent accuracy
  unfold roundWithAccuracy
  dsimp only
  generalize shiftToTargetExponent .binary64 mantissa exponent accuracy = shifted at hfirst hdigits
  -- rounding carries into at most one more digit
  have hcarry : shifted.1.roundedMantissa.log2 ≤ 53 := by
    have hrounded := roundedMantissa_le shifted.1
    have hbound : shifted.1.roundedMantissa < 2 ^ 54 := by omega
    by_cases hzero : shifted.1.roundedMantissa = 0
    · rw [hzero]
      decide
    · exact Nat.le_of_lt_succ ((Nat.log2_lt hzero).mpr hbound)
  have hsecond := shiftToTargetExponent_snd shifted.1.roundedMantissa shifted.2 .exact
  have hfinal := shiftToTargetExponent_fst shifted.1.roundedMantissa shifted.2 .exact
  generalize shiftToTargetExponent .binary64 shifted.1.roundedMantissa shifted.2 .exact = final
    at hsecond hfinal
  split
  · exact .zero sign
  · refine .finite sign _ hfinal ?_
    unfold totalExponent at hfirst hsecond htotal
    omega

/-! ## Division -/

/-- Not below two in size. -/
inductive AtLeastTwo : UnpackedFloat → Prop
  | finite (sign : Sign) {mantissa : Nat} {exponent : Int} (hpos : 0 < mantissa)
    (htotal : 2 ≤ totalExponent mantissa exponent) : AtLeastTwo (.finite sign mantissa exponent hpos)

theorem atLeastTwo_unpack {x : Float} (h : isFinite x = true) (hlarge : 2 ^ 62 ≤ positionOf x) :
    AtLeastTwo x.toModel.unpack := by
  rw [isFinite_iff_exponent] at h
  have hexponent : 1024 ≤ (unpackExponent (pattern x)).toNat := by
    rw [toNat_unpackExponent]
    unfold positionOf at hlarge
    show 1024 ≤ x.toBits.toNat / 2 ^ 52 % 2 ^ 11
    replace hlarge : 2 ^ 62 ≤ x.toBits.toNat % 2 ^ 63 := hlarge
    omega
  show AtLeastTwo (unpack .binary64 (pattern x))
  generalize pattern x = bits at h hexponent
  have hnotAll : unpackExponent bits ≠ -1#_ := by
    intro hall
    rw [hall] at h
    exact absurd h (by decide)
  have hnormal : unpackExponent bits ≠ 0#_ := by
    intro hzero
    rw [hzero] at hexponent
    exact absurd hexponent (by decide)
  unfold unpack
  dsimp only
  rw [if_neg hnotAll, if_neg hnormal]
  refine .finite _ _ ?_
  have hmantissa := toNat_normalMantissa (unpackMantissa bits)
  have hlog : 52 ≤ (1#1 ++ unpackMantissa bits).toNat.log2 := by
    rw [Nat.le_log2 (by omega), hmantissa]
    exact Nat.le_add_right _ _
  show 2 ≤ ((1#1 ++ unpackMantissa bits).toNat.log2 : Int) + 1
    + ((unpackExponent bits).toNat - (1023 + 52))
  omega

/-- The quotient of two mantissas has at most as many more digits as the first was shifted. -/
theorem log2_div_le {m₁ m₂ shift : Nat} (h₂ : 0 < m₂) (hne : m₁ <<< shift / m₂ ≠ 0) :
    (m₁ <<< shift / m₂).log2 + m₂.log2 ≤ m₁.log2 + shift := by
  have hlow : 2 ^ (m₁ <<< shift / m₂).log2 ≤ m₁ <<< shift / m₂ := Nat.log2_self_le hne
  have hlow₂ : 2 ^ m₂.log2 ≤ m₂ := Nat.log2_self_le h₂.ne'
  have hhigh : m₁ < 2 ^ (m₁.log2 + 1) := Nat.lt_log2_self
  have hlt : 2 ^ ((m₁ <<< shift / m₂).log2 + m₂.log2) < 2 ^ (m₁.log2 + 1 + shift) := calc
    2 ^ ((m₁ <<< shift / m₂).log2 + m₂.log2)
      = 2 ^ (m₁ <<< shift / m₂).log2 * 2 ^ m₂.log2 := Nat.pow_add ..
    _ ≤ (m₁ <<< shift / m₂) * m₂ := Nat.mul_le_mul hlow hlow₂
    _ ≤ m₁ <<< shift := Nat.div_mul_le_self ..
    _ = m₁ * 2 ^ shift := Nat.shiftLeft_eq ..
    _ < 2 ^ (m₁.log2 + 1) * 2 ^ shift := Nat.mul_lt_mul_of_pos_right hhigh (Nat.two_pow_pos _)
    _ = 2 ^ (m₁.log2 + 1 + shift) := (Nat.pow_add ..).symm
  have := (Nat.pow_lt_pow_iff_right (by decide)).mp hlt
  omega

theorem isFinite_div {x y : Float} (hx : isFinite x = true) (hy : isFinite y = true)
    (hlarge : 2 ^ 62 ≤ positionOf y) : isFinite (x / y) = true := by
  show isFinite (.ofModel (.pack (div .binary64 x.toModel.unpack y.toModel.unpack))) = true
  apply isFinite_pack
  have hdividend := fits_unpack hx
  have hdivisor := atLeastTwo_unpack hy hlarge
  generalize x.toModel.unpack = dividend at hdividend
  generalize y.toModel.unpack = divisor at hdivisor
  cases hdivisor with
  | @finite sign₂ m₂ e₂ hpos₂ htotal =>
    cases hdividend with
    | zero sign => exact .zero _
    | @finite sign₁ m₁ e₁ hpos₁ hmantissa hexponent =>
      have hdigits : m₁.log2 ≤ 52 := Nat.le_of_lt_succ ((Nat.log2_lt hpos₁.ne').mpr hmantissa)
      unfold div divCore
      dsimp only
      generalize htarget : min (e₁ - e₂) (Format.binary64.targetExponent
        (totalExponent m₁ e₁ - totalExponent m₂ e₂)) = target
      replace htarget : min (e₁ - e₂)
        (max (totalExponent m₁ e₁ - totalExponent m₂ e₂ - 53) (-1074)) = target := htarget
      unfold totalExponent at htarget htotal
      apply fits_roundWithAccuracy
      · omega
      · unfold totalExponent
        by_cases hzero : m₁ <<< (e₁ - e₂ - target).toNat / m₂ = 0
        · rw [hzero, Nat.log2_zero]
          omega
        · have hquotient := log2_div_le hpos₂ hzero
          omega

/-! ## Rounded quotients -/

/-- A quotient whose leading bit is not among the last ones of doubles rounds to a finite double. -/
theorem nearest_lt_infinity {num den : Nat} (hden : 0 < den) (h : Nat.log2 (num / den) ≤ 2096) :
    nearest num den < infinity := by
  obtain ⟨-, hend⟩ := block_of_log2 num hden
  unfold nearest infinity
  dsimp only
  have hblock : Nat.log2 (num / den) - 52 ≤ 2044 := by omega
  generalize Nat.log2 (num / den) - 52 = s at hend hblock
  obtain ⟨-, hhigh⟩ := roundHalfEven_in_block num (Nat.mul_pos hden (Nat.two_pow_pos s))
  have hplace := hhigh hend
  generalize roundHalfEven num (den * 2 ^ s) = place at hplace
  have hposition : s * 2 ^ 52 + place < 2047 * 2 ^ 52 := by omega
  exact Nat.lt_of_le_of_lt (Nat.min_le_left _ _) hposition

/-- A quotient of two or more rounds to no less. -/
theorem le_nearest {num den : Nat} (hden : 0 < den) (h : 1075 ≤ Nat.log2 (num / den)) :
    2 ^ 62 ≤ nearest num den := by
  obtain ⟨hstart, -⟩ := block_of_log2 num hden
  unfold nearest infinity
  dsimp only
  have hblock : 1023 ≤ Nat.log2 (num / den) - 52 := by omega
  generalize Nat.log2 (num / den) - 52 = s at hstart hblock
  obtain ⟨hlow, -⟩ := roundHalfEven_in_block num (Nat.mul_pos hden (Nat.two_pow_pos s))
  have hplace := hlow (hstart.resolve_left (by omega))
  generalize roundHalfEven num (den * 2 ^ s) = place at hplace
  show 2 ^ 62 ≤ min (s * 2 ^ 52 + place) (2047 * 2 ^ 52)
  omega

/-- The leading bit of a product is at the sum of the places of the factors, or one above. -/
theorem log2_mul_bounds {n m : Nat} (hn : n ≠ 0) (hm : m ≠ 0) :
    Nat.log2 n + Nat.log2 m ≤ Nat.log2 (n * m) ∧
      Nat.log2 (n * m) ≤ Nat.log2 n + Nat.log2 m + 1 := by
  constructor
  · rw [Nat.le_log2 (Nat.mul_ne_zero hn hm), Nat.pow_add]
    exact Nat.mul_le_mul (Nat.log2_self_le hn) (Nat.log2_self_le hm)
  · have hhigh : n * m < 2 ^ (Nat.log2 n + 1 + (Nat.log2 m + 1)) := by
      rw [Nat.pow_add]
      exact Nat.mul_lt_mul'' Nat.lt_log2_self Nat.lt_log2_self
    have hlog := (Nat.log2_lt (Nat.mul_ne_zero hn hm)).mpr hhigh
    omega

theorem log2_unitsOfOne : Nat.log2 unitsOfOne = 1074 := by decide +kernel

/-- Every integer below `2 ^ 64` rounds to a finite double. -/
theorem isFinite_ofNat {n : Nat} (h : n < 2 ^ 64) : isFinite (ofNat n) = true := by
  have hlog : Nat.log2 (n * unitsOfOne / 1) ≤ 2096 := by
    rw [Nat.div_one]
    by_cases hzero : n = 0
    · rw [hzero, Nat.zero_mul]
      exact Nat.zero_le _
    · have hbits := (Nat.log2_lt hzero).mpr h
      have hproduct := (log2_mul_bounds hzero unitsOfOne_pos.ne').2
      rw [log2_unitsOfOne] at hproduct
      omega
  have hfinite := nearest_lt_infinity Nat.one_pos hlog
  unfold ofNat
  rw [pow_eq_unitsOfOne, isFinite_toFloat hfinite.le, decide_eq_true hfinite]

end Colloquy.Binary64
