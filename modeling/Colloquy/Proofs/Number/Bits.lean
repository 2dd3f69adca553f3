import Colloquy.Number.Binary64
import Mathlib

/-!
# Bit patterns of doubles

A double is its bit pattern, but for what is not a number, which has one pattern only. Main
statements: `toFloat_positionOf`, that a double is known by its sign and its position, and
`positionOf_toFloat` and `isNegative_toFloat`, that every sign and every position up to infinity
are those of a double. All rest on `pack_unpack_of_valid`: taking a pattern apart and putting it
together again gives it back.
-/

namespace Colloquy.Binary64

open Float.Model (Format)
open Float.Model.UnpackedFloat

/-- The patterns of doubles. -/
abbrev Pattern := BitVec Format.binary64.numBits

/-! ## Taking patterns apart -/

theorem toBits_ofBits {bits : UInt64} (hvalid : Format.binary64.Valid bits.toBitVec) :
    (Float.ofBits bits).toBits = bits := by
  show UInt64.ofBitVec (pack .binary64 (unpack .binary64 bits.toBitVec)) = bits
  rw [pack_unpack_of_valid hvalid]

theorem toNat_unpackMantissa (b : Pattern) : (unpackMantissa b).toNat = b.toNat % 2 ^ 52 := by
  show (b.extractLsb' 0 52).toNat = _
  rw [BitVec.extractLsb'_toNat, Nat.shiftRight_zero]

theorem toNat_unpackExponent (b : Pattern) :
    (unpackExponent b).toNat = b.toNat / 2 ^ 52 % 2 ^ 11 := by
  show (b.extractLsb' 52 11).toNat = _
  rw [BitVec.extractLsb'_toNat, Nat.shiftRight_eq_div_pow]

/-! ## Sign and position -/

/-- The pattern of a sign and a position. -/
def patternOf (negative : Bool) (position : Nat) : Nat :=
  (if negative then Nat.pow 2 63 else 0) + position

section Position

variable {position : Nat} (hposition : position ≤ infinity)

include hposition

theorem toNat_patternOf (negative : Bool) :
    (UInt64.ofNat (patternOf negative position)).toNat = patternOf negative position := by
  have hbound : position ≤ 2047 * 2 ^ 52 := hposition
  refine Nat.mod_eq_of_lt ?_
  cases negative
  · show 0 + position < 2 ^ 64
    omega
  · show 2 ^ 63 + position < 2 ^ 64
    omega

/-- No pattern up to infinity is that of something that is not a number. -/
theorem valid_patternOf (negative : Bool) :
    Format.binary64.Valid (UInt64.ofNat (patternOf negative position)).toBitVec := by
  have hbound : position ≤ 2047 * 2 ^ 52 := hposition
  have hbits := toNat_patternOf hposition negative
  generalize (UInt64.ofNat (patternOf negative position)) = bits at hbits
  replace hbits : bits.toBitVec.toNat = patternOf negative position := hbits
  refine ⟨fun hexponent hmantissa => absurd (BitVec.eq_of_toNat_eq ?_) hmantissa⟩
  have hones := congrArg BitVec.toNat hexponent
  rw [toNat_unpackExponent, hbits] at hones
  rw [toNat_unpackMantissa, hbits]
  show patternOf negative position % 2 ^ 52 = 0
  cases negative
  · replace hones : (0 + position) / 2 ^ 52 % 2 ^ 11 = 2047 := hones
    show (0 + position) % 2 ^ 52 = 0
    omega
  · replace hones : (2 ^ 63 + position) / 2 ^ 52 % 2 ^ 11 = 2047 := hones
    show (2 ^ 63 + position) % 2 ^ 52 = 0
    omega

theorem toBits_toFloat (negative : Bool) :
    (toFloat negative position).toBits.toNat = patternOf negative position := by
  have hbits := toBits_ofBits (valid_patternOf hposition negative)
  rw [← toNat_patternOf hposition, ← hbits]
  rfl

/-- Every position up to infinity is that of a double. -/
@[simp] theorem positionOf_toFloat (negative : Bool) :
    positionOf (toFloat negative position) = position := by
  have hbound : position ≤ 2047 * 2 ^ 52 := hposition
  unfold positionOf
  rw [toBits_toFloat hposition]
  cases negative
  · show (0 + position) % 2 ^ 63 = position
    omega
  · show (2 ^ 63 + position) % 2 ^ 63 = position
    omega

@[simp] theorem isNegative_toFloat (negative : Bool) :
    isNegative (toFloat negative position) = negative := by
  have hbound : position ≤ 2047 * 2 ^ 52 := hposition
  unfold isNegative
  rw [toBits_toFloat hposition]
  cases negative
  · refine decide_eq_false ?_
    show ¬ 2 ^ 63 ≤ 0 + position
    omega
  · refine decide_eq_true ?_
    show 2 ^ 63 ≤ 2 ^ 63 + position
    omega

theorem isFinite_toFloat (negative : Bool) :
    isFinite (toFloat negative position) = decide (position < infinity) := by
  unfold isFinite
  rw [positionOf_toFloat hposition]

end Position

/-- A double is known by its sign and its position. -/
theorem toFloat_positionOf (x : Float) : toFloat (isNegative x) (positionOf x) = x := by
  have hbits : x.toBits.toNat < 2 ^ 64 := x.toBits.toNat_lt
  have hpattern : patternOf (isNegative x) (positionOf x) = x.toBits.toNat := by
    unfold patternOf isNegative positionOf
    show (if decide (2 ^ 63 ≤ x.toBits.toNat) = true then 2 ^ 63 else 0)
      + x.toBits.toNat % 2 ^ 63 = x.toBits.toNat
    by_cases hsign : 2 ^ 63 ≤ x.toBits.toNat
    · rw [if_pos (decide_eq_true hsign)]
      omega
    · rw [if_neg (fun h => hsign (of_decide_eq_true h))]
      omega
  show Float.ofBits (UInt64.ofNat (patternOf (isNegative x) (positionOf x))) = x
  rw [hpattern, UInt64.ofNat_toNat, Float.ofBits_toBits]

end Colloquy.Binary64
