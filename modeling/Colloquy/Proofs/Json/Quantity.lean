import Colloquy.Proofs.Json.Number
import Colloquy.Proofs.Json.Record
import Colloquy.Proofs.Number.Finite

/-!
# What numerals are read as

A numeral that is read as a quantity is read as a finite one (`isFinite_of_toFloat?`): reading starts
at an integer below `2 ^ 64`, a quotient of finite doubles by a power of ten is finite, and a product
that is not finite is refused. A count below `2 ^ 64` is written as its digits and read as itself
(`toNat?_ofNat`), and whatever is read as a count is below that bound (`lt_of_toNat?`).
-/

namespace Colloquy

open Binary64

namespace Numeral

/-! ## Powers of ten -/

theorem log2_pow_le {j k : Nat} (h : j ≤ k) : Nat.log2 (10 ^ j) ≤ Nat.log2 (10 ^ k) := by
  have hpos : ∀ i, 10 ^ i ≠ 0 := fun i => (Nat.pow_pos (by decide)).ne'
  rw [Nat.le_log2 (hpos k)]
  exact (Nat.log2_self_le (hpos j)).trans (Nat.pow_le_pow_right (by decide) h)

/-- The powers that quantities are scaled by are finite, and not below two. -/
theorem powerOfTen_bounds {k : Nat} (hpos : 0 < k) (hk : k ≤ 308) :
    isFinite (powerOfTen k) = true ∧ 2 ^ 62 ≤ positionOf (powerOfTen k) := by
  have hposition : Decimal.position ⟨false, 1, k⟩ = nearest (10 ^ k * unitsOfOne) 1 := by
    unfold Decimal.position
    rw [if_neg Nat.one_ne_zero, if_neg (by dsimp only; omega), if_neg (by dsimp only; omega),
      pow_eq_unitsOfOne]
    have hden : (-(k : Int)).toNat = 0 := by omega
    rw [Int.toNat_natCast, hden, Nat.one_mul, Nat.mul_comm]
    rfl
  have hten : 10 ≤ 10 ^ k := Nat.le_self_pow hpos.ne' 10
  have hlow : 3 ≤ Nat.log2 (10 ^ k) := (Nat.le_log2 (by omega)).mpr (by omega)
  obtain ⟨hlower, hupper⟩ := log2_mul_bounds (n := 10 ^ k) (by omega) unitsOfOne_pos.ne'
  rw [log2_unitsOfOne] at hlower hupper
  have hlarge : 2 ^ 62 ≤ nearest (10 ^ k * unitsOfOne) 1 := by
    apply le_nearest Nat.one_pos
    rw [Nat.div_one]
    omega
  have hfinite : nearest (10 ^ k * unitsOfOne) 1 < infinity := by
    rcases Nat.lt_or_eq_of_le hk with hk | rfl
    · have hbelow : Nat.log2 (10 ^ k) ≤ 1019 := by
        have hlast : Nat.log2 (10 ^ 307) = 1019 := by decide +kernel
        exact (log2_pow_le (Nat.le_of_lt_succ hk)).trans_eq hlast
      apply nearest_lt_infinity Nat.one_pos
      rw [Nat.div_one]
      omega
    · -- the last power lies too close to the end for its leading bit to tell
      decide +kernel
  unfold powerOfTen Decimal.toFloat
  rw [hposition, isFinite_toFloat hfinite.le, positionOf_toFloat hfinite.le]
  exact ⟨decide_eq_true hfinite, hlarge⟩

/-! ## Quantities -/

/-- Scaling a finite double gives a finite one or nothing. -/
theorem isFinite_of_scale {x y : Float} {exponent : Int} (hx : isFinite x = true)
    (h : scale x exponent = some y) : isFinite y = true := by
  fun_induction scale x exponent with
  | case1 | case6 =>
    cases h
    exact hx
  | case2 x exponent hfar hnonzero ih =>
    obtain ⟨hten, hlarge⟩ := powerOfTen_bounds (k := 308) (by decide) (by decide)
    exact ih (isFinite_div hx hten hlarge) h
  | case3 x exponent hnear hnegative =>
    cases h
    obtain ⟨hten, hlarge⟩ := powerOfTen_bounds (k := (-exponent).toNat) (by omega) (by omega)
    exact isFinite_div hx hten hlarge
  | case4 x exponent hnear hnonnegative hsmall product hproduct =>
    rw [← Option.some.inj h]
    exact hproduct
  | case5 | case7 => cases h

theorem takeDigits_lt {value : Nat} (h : value < wordBound) (cs : List Char) :
    (takeDigits value cs).1 < wordBound := by
  induction cs generalizing value with
  | nil => exact h
  | cons c cs ih =>
    unfold takeDigits
    dsimp only
    split
    · next hnext => exact ih hnext
    · exact h

theorem isFinite_of_bestEffort {n : Numeral} {x : Float} (h : n.bestEffort = some x) :
    isFinite x = true := by
  have hzero : isFinite 0 = true := by decide +kernel
  have hleading : ∀ cs, (takeDigits (takeDigits 0 n.whole).1 cs).1 < 2 ^ 64 :=
    takeDigits_lt (takeDigits_lt (by decide) n.whole)
  have hstart := isFinite_ofNat (hleading n.fraction)
  unfold bestEffort at h
  dsimp only at h
  split at h
  · exact isFinite_of_scale hstart h
  · split at h
    · exact isFinite_of_scale hstart h
    · split at h
      · cases h
      · cases h
        exact hzero

/-- **A quantity that was read is finite.** -/
theorem isFinite_of_float? {n : Numeral} {x : Float} (h : n.float? = some x) : isFinite x = true := by
  unfold float? at h
  obtain ⟨magnitude, hmagnitude, rfl⟩ := Option.map_eq_some_iff.mp h
  have hfinite : isFinite magnitude = true := by
    split at hmagnitude
    · next hinteger =>
      cases hmagnitude
      exact Binary64.isFinite_ofNat hinteger.2
    · exact isFinite_of_bestEffort hmagnitude
  split
  · exact Binary64.isFinite_neg hfinite
  · exact hfinite

end Numeral

namespace Json

theorem isFinite_of_toFloat? {document : Json} {x : Float} (h : document.toFloat? = some x) :
    isFinite x = true := by
  cases document with
  | number literal =>
    obtain ⟨n, -, hread⟩ := Option.bind_eq_some_iff.mp h
    exact Numeral.isFinite_of_float? hread
  | _ => cases h

/-! ## Counts -/

theorem lt_of_toNat? {document : Json} {n : Nat} (h : document.toNat? = some n) :
    n < Numeral.wordBound := by
  cases document with
  | number literal =>
    obtain ⟨numeral, -, hread⟩ := Option.bind_eq_some_iff.mp h
    unfold Numeral.natural? at hread
    split at hread
    · next hbound =>
      cases hread
      exact hbound.2.2
    · cases hread
  | _ => cases h

/-- The digits of a count are a numeral without fraction or exponent. -/
theorem ofChars?_toDigits (n : Nat) :
    Numeral.ofChars? (Nat.toDigits 10 n) = some ⟨false, Nat.toDigits 10 n, [], none⟩ := by
  have hdigits := Decimal.allDigits_toDigits n
  have hne : Nat.toDigits 10 n ≠ [] := Nat.toDigits_ne_nil
  have hwell : ¬ (Nat.toDigits 10 n = [] ∨
      (Nat.toDigits 10 n).head? = some '0' ∧ (Nat.toDigits 10 n).length ≠ 1) := by
    by_cases hzero : n = 0
    · rw [hzero]
      decide
    · simp [hne, Numeral.head?_toDigits hzero]
  generalize Nat.toDigits 10 n = digits at hdigits hne hwell
  have hwhole := takeWhile_stretch hdigits endsStretch_nil
  have hrest := dropWhile_stretch hdigits endsStretch_nil
  rw [List.append_nil] at hwhole hrest
  have hread : Numeral.unsigned? false digits = some ⟨false, digits, [], none⟩ := by
    unfold Numeral.unsigned?
    simp only [hwhole, hrest]
    rw [if_neg hwell]
    rfl
  unfold Numeral.ofChars?
  split
  · exact absurd (hdigits '-' (List.mem_cons_self ..)) (by decide)
  · exact hread

theorem toList_toString (n : Nat) : (toString n).toList = Nat.toDigits 10 n := by
  simp [Nat.toList_repr]

theorem plain_ofNat (n : Nat) : (ofNat n).Plain := by
  apply plain_number
  rw [toList_toString]
  refine ⟨fun c hc => Numeral.isNumeralChar_of_isDigit (Decimal.allDigits_toDigits n c hc), ?_⟩
  rw [ofChars?_toDigits]
  rfl

section Count

variable {n : Nat} (h : n < Numeral.wordBound)

include h

theorem toNat?_ofNat : (ofNat n).toNat? = some n := by
  show (Numeral.ofChars? (toString n).toList).bind Numeral.natural? = some n
  rw [toList_toString, ofChars?_toDigits]
  unfold Numeral.natural?
  show (if _ then some (Decimal.valueOf (Nat.toDigits 10 n)) else none) = some n
  rw [Decimal.valueOf_toDigits, if_pos ⟨rfl, rfl, h⟩]

theorem isReadable_ofNat (depth : Nat) : isReadable depth (ofNat n) = true := by
  show ((Numeral.ofChars? (toString n).toList).bind Numeral.float?).isSome = true
  rw [toList_toString, ofChars?_toDigits]
  unfold Numeral.float?
  show (Option.map _ (if _ ∧ Decimal.valueOf (Nat.toDigits 10 n) < Numeral.wordBound then _
    else _)).isSome = true
  rw [Decimal.valueOf_toDigits, if_pos ⟨rfl, h⟩]
  rfl

end Count

end Json

end Colloquy
