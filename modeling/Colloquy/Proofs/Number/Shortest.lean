import Colloquy.Number.Decimal
import Colloquy.Number.Shortest
import Colloquy.Proofs.Number.Nearest

/-!
# Shortest digits read back

A decimal `ReadsAs` a position when its digits are not all zero and it rounds to the position; then
the double nearest to it is the one at that position (`Decimal.ReadsAs.position_eq`).

Main statement, `shortest_readsAs`: the digits found for a position read as it. A grid either has a
decimal that rounds to the position or is wider than the interval around it, and the grid of
seventeen digits is not that wide (`exists_onGrid`), so the search ends before its tries do.
-/

namespace Colloquy

open Binary64 (units units_strictMono unitsOfOne unitsOfOne_pos Rounds infinity)

/-! ## Decimals that round to a position -/

namespace Decimal

/-- The decimal is not zero, and nearest to a position. -/
structure ReadsAs (d : Decimal) (position : Nat) : Prop where
  nonzero : d.digits ≠ 0
  low : -350 ≤ d.exponent
  rounds : Rounds position (d.digits * unitsOfOne * 10 ^ d.exponent.toNat) (10 ^ (-d.exponent).toNat)

/-- What is nearest to a finite position has no exponent beyond those of doubles. -/
theorem ReadsAs.exponent_le {d : Decimal} {position : Nat} (h : d.ReadsAs position)
    (hfinite : position < infinity) : d.exponent ≤ 400 := by
  by_contra hlarge
  have hone := unitsOfOne_pos
  have hupper := h.rounds.le_high
  have hneighbours : units position + units (position + 1) ≤ 2 * units infinity := by
    have hhere := units_strictMono.monotone (Nat.le_of_lt hfinite)
    have hnext := units_strictMono.monotone (show position + 1 ≤ infinity from hfinite)
    omega
  have hden : (-d.exponent).toNat = 0 := by omega
  have hpower : (2 : Nat) ^ 1024 < 10 ^ d.exponent.toNat := by
    obtain ⟨more, hmore⟩ : ∃ more, d.exponent.toNat = 200 + (200 + more) :=
      ⟨d.exponent.toNat - 400, by omega⟩
    have hbound : (2 : Nat) ^ 1024 < 10 ^ 200 * 10 ^ 200 := by decide +kernel
    rw [hmore, Nat.pow_add, Nat.pow_add, ← Nat.mul_assoc]
    exact lt_mul_of_lt_of_one_le hbound (Nat.pow_pos (by omega))
  have hvalue : unitsOfOne * 10 ^ d.exponent.toNat ≤ d.digits * unitsOfOne * 10 ^ d.exponent.toNat :=
    Nat.mul_le_mul_right _ (Nat.le_mul_of_pos_left _ (Nat.pos_of_ne_zero h.nonzero))
  have hscaled := Nat.mul_lt_mul_of_pos_left hpower hone
  rw [hden, Nat.pow_zero, Nat.mul_one] at hupper
  rw [Binary64.units_infinity] at hneighbours
  omega

/-- The double nearest to such a decimal is the one at the position. -/
theorem ReadsAs.position_eq {d : Decimal} {position : Nat} (h : d.ReadsAs position)
    (hfinite : position < infinity) : d.position = position := by
  have hhigh := h.exponent_le hfinite
  have hlow := h.low
  unfold Decimal.position
  rw [if_neg h.nonzero, if_neg (by omega), if_neg (by omega), Binary64.pow_eq_unitsOfOne]
  exact Binary64.nearest_eq (Nat.pow_pos (by omega)) hfinite h.rounds

end Decimal

namespace Shortest

/-! ## Grids -/

theorem scale_pos : 0 < scale := by decide +kernel

theorem pow_add_scale : ∀ places : Nat, 10 ^ (places + 350) = 10 ^ places * scale
  | 0 => by decide +kernel
  | places + 1 => by
    rw [Nat.add_right_comm, Nat.pow_succ 10 (places + 350), pow_add_scale places]
    ring

theorem roundsTo_iff {position decimal : Nat} :
    roundsTo position decimal = true ↔ Rounds position (decimal * unitsOfOne) scale := by
  have hdouble : decimal * Nat.pow 2 1075 = 2 * (decimal * unitsOfOne) := by
    have hpower : Nat.pow 2 1075 = unitsOfOne * 2 := by decide +kernel
    rw [hpower]
    ring
  unfold roundsTo Rounds
  dsimp only
  rw [hdouble]
  split
  · rw [Bool.and_eq_true, decide_eq_true_iff, decide_eq_true_iff]
  · rw [Bool.and_eq_true, decide_eq_true_iff, decide_eq_true_iff]

theorem onGrid?_rounds {tie : Tie} {position step digits : Nat}
    (h : onGrid? tie position step = some digits) : roundsTo position (digits * step) = true := by
  unfold onGrid? at h
  dsimp only at h
  split at h
  · cases h
  · next hbelow _ =>
    cases h
    exact hbelow
  · next _ habove =>
    cases h
    exact habove
  · next hbelow habove =>
    have hcases : digits = units position * scale / Nat.pow 2 1074 / step ∨
        digits = units position * scale / Nat.pow 2 1074 / step + 1 := by
      split at h
      · exact Or.inl (Option.some.inj h).symm
      · split at h
        · exact Or.inr (Option.some.inj h).symm
        · split at h
          · exact Or.inr (Option.some.inj h).symm
          · split at h
            · exact Or.inl (Option.some.inj h).symm
            · exact Or.inr (Option.some.inj h).symm
    rcases hcases with rfl | rfl
    · exact hbelow
    · exact habove

section Grid

variable {position below above : Nat}

/-- A decimal at or below the value that does not round to the position lies below its interval. -/
theorem le_low_of_not_rounds (hbelow : below * unitsOfOne ≤ units position * scale)
    (h : roundsTo position below ≠ true) :
    2 * (below * unitsOfOne) ≤ (units (position - 1) + units position) * scale := by
  have hinside : 2 * (below * unitsOfOne) < (units position + units (position + 1)) * scale := by
    have hnext := Nat.mul_lt_mul_of_pos_right (Binary64.units_lt_succ position) scale_pos
    linarith
  rw [Ne, roundsTo_iff] at h
  unfold Rounds at h
  by_contra hlow
  split at h
  · exact h ⟨by omega, by omega⟩
  · exact h ⟨by omega, by omega⟩

/-- A decimal above the value that does not round to the position lies above its interval. -/
theorem high_le_of_not_rounds (hpos : 0 < position)
    (habove : units position * scale < above * unitsOfOne)
    (h : roundsTo position above ≠ true) :
    (units position + units (position + 1)) * scale ≤ 2 * (above * unitsOfOne) := by
  have hinside : (units (position - 1) + units position) * scale < 2 * (above * unitsOfOne) := by
    have hprevious := Nat.mul_lt_mul_of_pos_right
      (units_strictMono (Nat.sub_lt hpos Nat.zero_lt_one)) scale_pos
    linarith
  rw [Ne, roundsTo_iff] at h
  unfold Rounds at h
  by_contra hhigh
  split at h
  · exact h ⟨by omega, by omega⟩
  · exact h ⟨by omega, by omega⟩

theorem onGrid?_eq_none {tie : Tie} {step : Nat} (h : onGrid? tie position step = none) :
    let next := units position * scale / Nat.pow 2 1074 / step
    roundsTo position (next * step) ≠ true ∧ roundsTo position ((next + 1) * step) ≠ true := by
  unfold onGrid? at h
  dsimp only at h ⊢
  split at h
  · next hbelow habove =>
    rw [hbelow, habove]
    exact ⟨Bool.false_ne_true, Bool.false_ne_true⟩
  · cases h
  · cases h
  · split at h
    · cases h
    · split at h
      · cases h
      · split at h <;> cases h

/-- A grid that misses the interval of a position is wider than it, and so than a grid of seventeen
digits. -/
theorem onGrid?_ne_none (tie : Tie) {step : Nat} (hpos : 0 < position) (hstep : 0 < step)
    (hfine : 10 ^ 16 * step ≤ units position * scale / Nat.pow 2 1074) :
    onGrid? tie position step ≠ none := by
  intro hnone
  obtain ⟨hbelow, habove⟩ := onGrid?_eq_none hnone
  rw [Binary64.pow_eq_unitsOfOne] at hfine hbelow habove
  have hwhole := Nat.div_mul_le_self (units position * scale) unitsOfOne
  have hwhole' := Nat.lt_mul_div_succ (units position * scale) unitsOfOne_pos
  generalize units position * scale / unitsOfOne = whole at hfine hbelow habove hwhole hwhole'
  have hnext := Nat.div_mul_le_self whole step
  have hnext' : whole + 1 ≤ (whole / step + 1) * step := by
    rw [Nat.mul_comm]
    exact Nat.lt_mul_div_succ whole hstep
  generalize whole / step = next at hbelow habove hnext hnext'
  have hlow := le_low_of_not_rounds
    ((Nat.mul_le_mul_right unitsOfOne hnext).trans hwhole) hbelow
  have hhigh := high_le_of_not_rounds hpos
    (hwhole'.trans_le (by rw [Nat.mul_comm]; exact Nat.mul_le_mul_right unitsOfOne hnext')) habove
  have hinterval := Nat.mul_lt_mul_of_pos_right (Binary64.units_lt_step hpos) scale_pos
  have hscaled := Nat.mul_le_mul_right unitsOfOne hfine
  have hgrid : (next + 1) * step * unitsOfOne = next * step * unitsOfOne + step * unitsOfOne := by
    ring
  rw [hgrid] at hhigh
  linarith

end Grid

/-! ## The search -/

/-- Trimming keeps the decimal. -/
theorem trimZeros_spec (digits : Nat) (exponent : Int) (hnonzero : digits ≠ 0) :
    (trimZeros digits exponent).1 ≠ 0 ∧ exponent ≤ (trimZeros digits exponent).2 ∧
      (trimZeros digits exponent).1 * 10 ^ ((trimZeros digits exponent).2 - exponent).toNat
        = digits := by
  fun_induction trimZeros digits exponent with
  | case1 digits exponent hzero ih =>
    obtain ⟨htrimmed, hraised, hvalue⟩ := ih (by omega)
    generalize trimZeros (digits / 10) (exponent + 1) = result at htrimmed hraised hvalue ⊢
    have hpower : (result.2 - exponent).toNat = (result.2 - (exponent + 1)).toNat + 1 := by omega
    refine ⟨htrimmed, by omega, ?_⟩
    rw [hpower, Nat.pow_succ, ← Nat.mul_assoc, hvalue]
    omega
  | case2 digits exponent hend => exact ⟨hnonzero, Int.le_refl _, by simp⟩

/-- Digits that round to a position on the scale read as it, zeros trimmed or not. -/
theorem readsAs_trimZeros {position digits place : Nat} (negative : Bool) (hpos : 0 < position)
    (h : roundsTo position (digits * 10 ^ place) = true) :
    Decimal.ReadsAs ⟨negative, (trimZeros digits ((place : Int) - 350)).1,
      (trimZeros digits ((place : Int) - 350)).2⟩ position := by
  have hrounds := roundsTo_iff.mp h
  have hnonzero : digits ≠ 0 := by
    rintro rfl
    have hlow := hrounds.low_le
    have hvalue := Nat.mul_pos (Binary64.units_pos hpos) scale_pos
    rw [Nat.zero_mul, Nat.zero_mul] at hlow
    linarith [Nat.zero_le (units (position - 1) * scale)]
  obtain ⟨htrimmed, hraised, hvalue⟩ := trimZeros_spec digits ((place : Int) - 350) hnonzero
  generalize trimZeros digits ((place : Int) - 350) = result at htrimmed hraised hvalue
  refine ⟨htrimmed, by dsimp only; omega, ?_⟩
  refine hrounds.of_quotient scale_pos (Nat.pow_pos (by omega)) ?_
  dsimp only
  have hplaces : (result.2 - ((place : Int) - 350)).toNat + place + (-result.2).toNat
      = result.2.toNat + 350 := by omega
  have hpowers := pow_add_scale result.2.toNat
  rw [← hplaces, Nat.pow_add, Nat.pow_add] at hpowers
  calc digits * 10 ^ place * unitsOfOne * 10 ^ (-result.2).toNat
      = result.1 * unitsOfOne * (10 ^ (result.2 - ((place : Int) - 350)).toNat * 10 ^ place
          * 10 ^ (-result.2).toNat) := by rw [← hvalue]; ring
    _ = result.1 * unitsOfOne * 10 ^ result.2.toNat * scale := by
        rw [hpowers]
        ring

/-- The search finds digits that read as the position, once its grids get fine enough. -/
theorem search_readsAs (tie : Tie) (negative : Bool) {position size : Nat} (hpos : 0 < position)
    (hfine : 10 ^ 16 * 10 ^ (size - 17) ≤ units position * scale / Nat.pow 2 1074)
    (hsize : 17 ≤ size) :
    ∀ count tries, count + tries = 18 → 0 < tries →
      Decimal.ReadsAs ⟨negative, (search tie position size count tries).1,
        (search tie position size count tries).2⟩ position
  | count, 0, hcount, htries => by omega
  | count, tries + 1, hcount, htries => by
    unfold search
    split
    · next digits hfound =>
      have hplace : (size : Int) - count - 350 = ((size - count : Nat) : Int) - 350 := by omega
      rw [hplace]
      exact readsAs_trimZeros negative hpos (onGrid?_rounds hfound)
    · next hnone =>
      rcases Nat.eq_zero_or_pos tries with rfl | hmore
      · obtain rfl : count = 17 := by omega
        exact absurd hnone (onGrid?_ne_none tie hpos (Nat.pow_pos (by omega)) hfine)
      · exact search_readsAs tie negative hpos hfine hsize (count + 1) tries (by omega) hmore

end Shortest

/-- Every position but that of zero has at least seventeen digits on the scale. -/
theorem Shortest.whole_large {position : Nat} (hpos : 0 < position) :
    10 ^ 16 ≤ units position * Shortest.scale / Nat.pow 2 1074 := by
  have hscale : 10 ^ 16 ≤ Shortest.scale / Nat.pow 2 1074 := by decide +kernel
  have hunits := Binary64.units_pos hpos
  exact hscale.trans (Nat.div_le_div_right (Nat.le_mul_of_pos_left _ hunits))

/-- **The shortest digits read back.** -/
theorem shortest_readsAs (tie : Tie) (negative : Bool) {position : Nat} (hpos : 0 < position) :
    Decimal.ReadsAs ⟨negative, (shortest tie position).1, (shortest tie position).2⟩ position := by
  have hlarge := Shortest.whole_large hpos
  unfold shortest
  dsimp only
  generalize hsize : (Nat.toDigits 10 (units position * Shortest.scale / Nat.pow 2 1074)).length
    = size
  generalize hwhole : units position * Shortest.scale / Nat.pow 2 1074 = whole at hlarge hsize
  have hdigits : ∀ count, 0 < count → (size ≤ count ↔ whole < 10 ^ count) := fun count hcount => by
    rw [← hsize]
    exact Nat.length_toDigits_le_iff (by omega) hcount
  have hlong : 17 ≤ size := by
    by_contra hshort
    have := (hdigits 16 (by omega)).mp (by omega)
    omega
  have hleading : 10 ^ (size - 1) ≤ whole := by
    by_contra hlt
    have := (hdigits (size - 1) (by omega)).mpr (by omega)
    omega
  refine Shortest.search_readsAs tie negative hpos ?_ hlong 1 17 rfl (by omega)
  rw [hwhole, ← Nat.pow_add, show 16 + (size - 17) = size - 1 by omega]
  exact hleading

end Colloquy
