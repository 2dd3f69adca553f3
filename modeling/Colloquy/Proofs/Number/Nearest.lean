import Colloquy.Number.Binary64
import Mathlib.Algebra.Order.Group.Nat
import Mathlib.Tactic.Ring
import Mathlib.Tactic.Linarith

/-!
# The nearest position

Positions come in blocks that are evenly spaced: the one `r` places into block `s` is worth
`r * 2 ^ s` units, and so is one past the end of a block (`units_block`). From this `units` is
increasing (`units_strictMono`) and its steps are never small beside its values
(`units_lt_step`).

`Rounds p num den` says that `num / den` units lie between the midpoints next to position `p`, the
midpoints themselves included just when `p` is even. Every quotient has at most one such position
(`Rounds.unique`). Main statement, `nearest_eq`: it is the one that `nearest` gives.
-/

namespace Colloquy.Binary64

/-! ## Blocks of positions -/

/-- A position in a block of evenly spaced ones, or just past its end. -/
theorem units_block {s r : Nat} (hlow : s = 0 ∨ 2 ^ 52 ≤ r) (hhigh : r ≤ 2 ^ 53) :
    units (s * 2 ^ 52 + r) = r * 2 ^ s := by
  unfold units
  show (if (s * 2 ^ 52 + r) / 2 ^ 52 = 0 then (s * 2 ^ 52 + r) % 2 ^ 52
    else (2 ^ 52 + (s * 2 ^ 52 + r) % 2 ^ 52) * 2 ^ ((s * 2 ^ 52 + r) / 2 ^ 52 - 1)) = r * 2 ^ s
  rcases Nat.lt_or_ge r (2 ^ 52) with hr | hr
  · -- only the first block reaches down to zero
    obtain rfl : s = 0 := by omega
    rw [if_pos (by omega)]
    omega
  · rcases Nat.lt_or_eq_of_le hhigh with hr' | rfl
    · have hblock : (s * 2 ^ 52 + r) / 2 ^ 52 = s + 1 := by omega
      have hoffset : 2 ^ 52 + (s * 2 ^ 52 + r) % 2 ^ 52 = r := by omega
      rw [hblock, hoffset, if_neg (Nat.succ_ne_zero s), Nat.add_sub_cancel]
    · have hblock : (s * 2 ^ 52 + 2 ^ 53) / 2 ^ 52 = s + 2 := by omega
      have hoffset : (s * 2 ^ 52 + 2 ^ 53) % 2 ^ 52 = 0 := by omega
      rw [hblock, hoffset, if_neg (Nat.succ_ne_zero _), Nat.add_zero,
        show s + 2 - 1 = s + 1 by omega]
      ring

/-- Every position is in some block, and not past its end. -/
theorem exists_block (position : Nat) :
    ∃ s r, position = s * 2 ^ 52 + r ∧ (s = 0 ∨ 2 ^ 52 ≤ r) ∧ r < 2 ^ 53 := by
  rcases Nat.lt_or_ge position (2 ^ 53) with hsmall | hlarge
  · exact ⟨0, position, by omega, Or.inl rfl, hsmall⟩
  · exact ⟨position / 2 ^ 52 - 1, 2 ^ 52 + position % 2 ^ 52, by omega, Or.inr (by omega), by omega⟩

theorem units_lt_succ (position : Nat) : units position < units (position + 1) := by
  obtain ⟨s, r, rfl, hlow, hhigh⟩ := exists_block position
  have hnext : units (s * 2 ^ 52 + r + 1) = (r + 1) * 2 ^ s := by
    rw [Nat.add_assoc]
    exact units_block (by omega) hhigh
  rw [hnext, units_block hlow hhigh.le]
  exact Nat.mul_lt_mul_of_pos_right (Nat.lt_succ_self r) (Nat.two_pow_pos s)

/-- Later positions are worth more. -/
theorem units_strictMono : StrictMono units := strictMono_nat_of_lt_succ units_lt_succ

theorem units_pos {position : Nat} (hpos : 0 < position) : 0 < units position :=
  Nat.lt_of_le_of_lt (Nat.zero_le _) (units_strictMono hpos)

/-- How many units make one; opening this in a proof would compute it. -/
@[irreducible] def unitsOfOne : Nat := Nat.pow 2 1074

theorem pow_eq_unitsOfOne : Nat.pow 2 1074 = unitsOfOne := by
  unfold unitsOfOne
  rfl

theorem unitsOfOne_pos : 0 < unitsOfOne := by decide +kernel

theorem units_infinity : units infinity = unitsOfOne * 2 ^ 1024 := by decide +kernel

/-- The position two after one is at least two steps of the block away. -/
theorem units_add_two_le {s r : Nat} (hlow : s = 0 ∨ 2 ^ 52 ≤ r) (hhigh : r < 2 ^ 53) :
    (r + 2) * 2 ^ s ≤ units (s * 2 ^ 52 + r + 2) := by
  rw [Nat.add_assoc]
  rcases Nat.lt_or_ge (r + 1) (2 ^ 53) with hinside | hend
  · rw [units_block (by omega) hinside]
  · -- one step further starts the next block, where the steps are twice as wide
    have hnext : s * 2 ^ 52 + (r + 2) = (s + 1) * 2 ^ 52 + (2 ^ 52 + 1) := by omega
    have hwider : (2 ^ 52 + 1) * 2 ^ (s + 1) = (2 ^ 53 + 2) * 2 ^ s := by ring
    rw [hnext, units_block (by omega) (by omega), hwider]
    exact Nat.mul_le_mul_right _ (by omega)

theorem succ_mul_le_units {s r : Nat} (hlow : s = 0 ∨ 2 ^ 52 ≤ r) (hhigh : r ≤ 2 ^ 53) :
    (r + 1) * 2 ^ s ≤ units (s * 2 ^ 52 + r + 1) := by
  rcases Nat.lt_or_eq_of_le hhigh with hinside | hend
  · rw [Nat.add_assoc, units_block (by omega) hinside]
  · obtain ⟨before, rfl⟩ : ∃ before, r = before + 1 := ⟨r - 1, by omega⟩
    have hnext : s * 2 ^ 52 + (before + 1) + 1 = s * 2 ^ 52 + before + 2 := by omega
    rw [hnext]
    exact units_add_two_le (by omega) (by omega)

/-- The steps around a position are not small beside its value: seventeen digits tell it from its
neighbours. -/
theorem units_lt_step {position : Nat} (hpos : 0 < position) :
    2 * units position + 10 ^ 16 * units (position - 1) < 10 ^ 16 * units (position + 1) := by
  obtain ⟨s, r, hblock, hlow, hhigh⟩ := exists_block (position - 1)
  obtain rfl : position = s * 2 ^ 52 + (r + 1) := by omega
  have hbefore := units_block hlow hhigh.le
  have hhere := units_block (s := s) (r := r + 1) (by omega) hhigh
  have hafter := units_add_two_le hlow hhigh
  have hstep : 0 < 2 ^ s := Nat.two_pow_pos s
  have hsize : 2 * (r + 1) * 2 ^ s < 2 * 10 ^ 16 * 2 ^ s :=
    Nat.mul_lt_mul_of_pos_right (by omega) hstep
  rw [hblock, hbefore, hhere]
  rw [show s * 2 ^ 52 + (r + 1) + 1 = s * 2 ^ 52 + r + 2 by omega]
  nlinarith

/-! ## Rounding -/

/-- `num / den` units are nearest to a position: they lie between the midpoints next to it, on which
only the even position has a claim. -/
def Rounds (position num den : Nat) : Prop :=
  if position % 2 = 0 then
    (units (position - 1) + units position) * den ≤ 2 * num ∧
      2 * num ≤ (units position + units (position + 1)) * den
  else
    (units (position - 1) + units position) * den < 2 * num ∧
      2 * num < (units position + units (position + 1)) * den

namespace Rounds

variable {position num den : Nat}

theorem low_le (h : Rounds position num den) :
    (units (position - 1) + units position) * den ≤ 2 * num := by
  unfold Rounds at h
  split at h
  · exact h.1
  · exact h.1.le

theorem le_high (h : Rounds position num den) :
    2 * num ≤ (units position + units (position + 1)) * den := by
  unfold Rounds at h
  split at h
  · exact h.2
  · exact h.2.le

/-- On a midpoint the position is even. -/
theorem even_of_high (h : Rounds position num den)
    (hmid : 2 * num = (units position + units (position + 1)) * den) : position % 2 = 0 := by
  unfold Rounds at h
  split at h
  · assumption
  · exact absurd hmid h.2.ne

theorem even_of_low (h : Rounds position num den)
    (hmid : (units (position - 1) + units position) * den = 2 * num) : position % 2 = 0 := by
  unfold Rounds at h
  split at h
  · assumption
  · exact absurd hmid h.1.ne

theorem not_lt {other : Nat} (hden : 0 < den) (h : Rounds position num den)
    (h' : Rounds other num den) : ¬ position < other := by
  intro hlt
  have hmid : units position + units (position + 1) ≤ units (other - 1) + units other :=
    Nat.add_le_add (units_strictMono.monotone (by omega)) (units_strictMono.monotone (by omega))
  have hchain : (units position + units (position + 1)) * den
      ≤ (units (other - 1) + units other) * den := Nat.mul_le_mul_right den hmid
  -- so the two midpoints are one, between neighbours that would both have to be even
  have hhigh : 2 * num = (units position + units (position + 1)) * den :=
    Nat.le_antisymm h.le_high (hchain.trans h'.low_le)
  have hlow : (units (other - 1) + units other) * den = 2 * num :=
    Nat.le_antisymm h'.low_le (h.le_high.trans hchain)
  have hsame : units position + units (position + 1) = units (other - 1) + units other :=
    Nat.eq_of_mul_eq_mul_right hden (hhigh.symm.trans hlow.symm)
  have hnext : other ≤ position + 1 := by
    by_contra hbeyond
    have hbefore : units (position + 1) ≤ units (other - 1) :=
      units_strictMono.monotone (by omega)
    have hafter : units position < units other := units_strictMono hlt
    omega
  have heven := h.even_of_high hhigh
  have heven' := h'.even_of_low hlow
  omega

/-- A quotient is nearest to one position only. -/
theorem unique {other : Nat} (hden : 0 < den) (h : Rounds position num den)
    (h' : Rounds other num den) : position = other :=
  Nat.le_antisymm (Nat.le_of_not_lt (h'.not_lt hden h)) (Nat.le_of_not_lt (h.not_lt hden h'))

/-- Rounding goes by the quotient, however it is written. -/
theorem of_quotient {num' den' : Nat} (hden : 0 < den) (hden' : 0 < den')
    (hquotient : num * den' = num' * den) (h : Rounds position num den) :
    Rounds position num' den' := by
  have hnum : 2 * num * den' = 2 * num' * den := by
    rw [Nat.mul_assoc, hquotient, Nat.mul_assoc]
  have hswap : ∀ bound, bound * den * den' = bound * den' * den := fun bound =>
    Nat.mul_right_comm bound den den'
  unfold Rounds at h ⊢
  split at h
  · next heven =>
    obtain ⟨hlow, hhigh⟩ := h
    replace hlow := Nat.mul_le_mul_right den' hlow
    replace hhigh := Nat.mul_le_mul_right den' hhigh
    rw [hswap, hnum] at hlow hhigh
    rw [if_pos heven]
    exact ⟨Nat.le_of_mul_le_mul_right hlow hden, Nat.le_of_mul_le_mul_right hhigh hden⟩
  · next hodd =>
    obtain ⟨hlow, hhigh⟩ := h
    replace hlow := Nat.mul_lt_mul_of_pos_right hlow hden'
    replace hhigh := Nat.mul_lt_mul_of_pos_right hhigh hden'
    rw [hswap, hnum] at hlow hhigh
    rw [if_neg hodd]
    exact ⟨Nat.lt_of_mul_lt_mul_right hlow, Nat.lt_of_mul_lt_mul_right hhigh⟩

end Rounds

/-! ## Finding the nearest position -/

/-- A quotient is at most a half away from `r`, and a half only if `r` is even. -/
structure NearInteger (r num den : Nat) : Prop where
  low : 2 * r * den ≤ 2 * num + den
  high : 2 * num ≤ (2 * r + 1) * den
  low_of_odd : r % 2 = 1 → 2 * r * den < 2 * num + den
  high_of_odd : r % 2 = 1 → 2 * num < (2 * r + 1) * den

theorem nearInteger_roundHalfEven (num : Nat) {den : Nat} (hden : 0 < den) :
    NearInteger (roundHalfEven num den) num den := by
  have hdivision : num / den * den + num % den = num := by
    rw [Nat.mul_comm]
    exact Nat.div_add_mod num den
  have hremainder : num % den < den := Nat.mod_lt num hden
  unfold roundHalfEven
  generalize num / den = quotient at hdivision
  generalize num % den = remainder at hdivision hremainder
  dsimp only
  split
  · exact ⟨by linarith, by linarith, fun _ => by linarith, fun _ => by linarith⟩
  · split
    · exact ⟨by linarith, by linarith, fun _ => by linarith, fun _ => by linarith⟩
    · -- halfway: the even neighbour
      have heven : (quotient + quotient % 2) % 2 ≠ 1 := by omega
      rcases Nat.mod_two_eq_zero_or_one quotient with hparity | hparity <;> rw [hparity] at heven ⊢
      · exact ⟨by linarith, by linarith, fun h => absurd h heven, fun h => absurd h heven⟩
      · exact ⟨by linarith, by linarith, fun h => absurd h heven, fun h => absurd h heven⟩

/-- A quotient in a block, rounded to a number of its steps, gives a position that it rounds to. -/
theorem rounds_of_nearInteger {s r num den : Nat} (hnear : NearInteger r num (den * 2 ^ s))
    (hstart : s = 0 ∨ 2 ^ 52 * (den * 2 ^ s) ≤ num) (hlow : s = 0 ∨ 2 ^ 52 ≤ r)
    (hhigh : r ≤ 2 ^ 53) : Rounds (s * 2 ^ 52 + r) num den := by
  obtain ⟨hbelow, habove, hbelow', habove'⟩ := hnear
  have hhere := units_block hlow hhigh
  have hafter : (2 * r + 1) * (den * 2 ^ s)
      ≤ (units (s * 2 ^ 52 + r) + units (s * 2 ^ 52 + r + 1)) * den := by
    have hnext := Nat.mul_le_mul_right den (succ_mul_le_units hlow hhigh)
    rw [hhere]
    linarith
  have hparity : (s * 2 ^ 52 + r) % 2 = r % 2 := by omega
  by_cases hfirst : s = 0 ∨ 2 ^ 52 + 1 ≤ r
  · rcases Nat.eq_zero_or_pos r with rfl | hpos
    · obtain rfl : s = 0 := by omega
      exact ⟨by rw [show (units _ + units _) * den = 0 by simp [units]]; exact Nat.zero_le _,
        habove.trans hafter⟩
    · obtain ⟨before, rfl⟩ : ∃ before, r = before + 1 := ⟨r - 1, by omega⟩
      have hprevious : s * 2 ^ 52 + (before + 1) - 1 = s * 2 ^ 52 + before := by omega
      have hbefore : units (s * 2 ^ 52 + (before + 1) - 1) = before * 2 ^ s := by
        rw [hprevious]
        exact units_block (by omega) (by omega)
      have hmid : (units (s * 2 ^ 52 + (before + 1) - 1) + units (s * 2 ^ 52 + (before + 1))) * den
          + den * 2 ^ s = 2 * (before + 1) * (den * 2 ^ s) := by
        rw [hbefore, hhere]
        ring
      unfold Rounds
      rw [hparity]
      split
      · exact ⟨by linarith, habove.trans hafter⟩
      · have hodd : (before + 1) % 2 = 1 := by omega
        exact ⟨by linarith [hbelow' hodd], (habove' hodd).trans_le hafter⟩
  · -- the first position of a block has the wider half of its interval above it
    obtain rfl : r = 2 ^ 52 := by omega
    have hbefore : units (s * 2 ^ 52 + 2 ^ 52 - 1) ≤ units (s * 2 ^ 52 + 2 ^ 52) :=
      units_strictMono.monotone (Nat.sub_le _ _)
    have hmid : (units (s * 2 ^ 52 + 2 ^ 52 - 1) + units (s * 2 ^ 52 + 2 ^ 52)) * den ≤ 2 * num := by
      have hscaled := Nat.mul_le_mul_right den (Nat.add_le_add_right hbefore (2 ^ 52 * 2 ^ s))
      rw [hhere] at hscaled ⊢
      have hnum := hstart.resolve_left (by omega)
      linarith
    unfold Rounds
    rw [if_pos (by omega)]
    exact ⟨hmid, habove.trans hafter⟩

/-- The block that a quotient lies in, by the place of its leading bit. -/
theorem block_of_log2 (num : Nat) {den : Nat} (hden : 0 < den) :
    let s := Nat.log2 (num / den) - 52
    (s = 0 ∨ 2 ^ 52 * (den * 2 ^ s) ≤ num) ∧ num < 2 ^ 53 * (den * 2 ^ s) := by
  intro s
  have hbelow : num / den * den ≤ num := Nat.div_mul_le_self num den
  have habove : num < (num / den + 1) * den := by
    rw [Nat.mul_comm]
    exact Nat.lt_mul_div_succ num hden
  have hlead : num / den < 2 ^ (Nat.log2 (num / den) + 1) := Nat.lt_log2_self
  constructor
  · refine or_iff_not_imp_left.mpr fun hs => ?_
    have hexponent : 52 + s = Nat.log2 (num / den) := by omega
    have hquotient : 2 ^ Nat.log2 (num / den) ≤ num / den :=
      Nat.log2_self_le fun hzero => hs (by simp [s, hzero])
    calc 2 ^ 52 * (den * 2 ^ s) = 2 ^ (52 + s) * den := by ring
      _ = 2 ^ Nat.log2 (num / den) * den := by rw [hexponent]
      _ ≤ num / den * den := Nat.mul_le_mul_right den hquotient
      _ ≤ num := hbelow
  · have hquotient : num / den + 1 ≤ 2 ^ (53 + s) :=
      hlead.trans_le (Nat.pow_le_pow_right (by omega) (by omega))
    calc num < (num / den + 1) * den := habove
      _ ≤ 2 ^ (53 + s) * den := Nat.mul_le_mul_right den hquotient
      _ = 2 ^ 53 * (den * 2 ^ s) := by ring

/-- The place in a block that rounding gives lies in the block, or just past its end. -/
theorem roundHalfEven_in_block (num : Nat) {step : Nat} (hpos : 0 < step) :
    (2 ^ 52 * step ≤ num → 2 ^ 52 ≤ roundHalfEven num step) ∧
      (num < 2 ^ 53 * step → roundHalfEven num step ≤ 2 ^ 53) := by
  have hnear := nearInteger_roundHalfEven num hpos
  constructor
  · intro hstart
    by_contra hlt
    have hscaled := Nat.mul_le_mul_right step (Nat.succ_le_of_lt (Nat.lt_of_not_le hlt))
    linarith [hnear.high]
  · intro hend
    by_contra hlt
    have hscaled := Nat.mul_le_mul_right step (Nat.succ_le_of_lt (Nat.lt_of_not_le hlt))
    linarith [hnear.low]

/-- `nearest` gives the position that a quotient rounds to. -/
theorem nearest_eq {position num den : Nat} (hden : 0 < den) (hfinite : position < infinity)
    (h : Rounds position num den) : nearest num den = position := by
  obtain ⟨hstart, hend⟩ := block_of_log2 num hden
  unfold nearest
  dsimp only
  generalize Nat.log2 (num / den) - 52 = s at hstart hend
  have hpos : 0 < den * 2 ^ s := Nat.mul_pos hden (Nat.two_pow_pos s)
  obtain ⟨hlow, hhigh⟩ := roundHalfEven_in_block num hpos
  have hrounds := rounds_of_nearInteger (nearInteger_roundHalfEven num hpos) hstart
    (hstart.imp_right hlow) (hhigh hend)
  have hfound : s * 2 ^ 52 + roundHalfEven num (den * 2 ^ s) = position := hrounds.unique hden h
  show min (s * 2 ^ 52 + roundHalfEven num (den * 2 ^ s)) infinity = position
  rw [hfound]
  exact Nat.min_eq_left hfinite.le

end Colloquy.Binary64
