import Colloquy.Number.Binary64

/-!
# Shortest digits

`shortest` finds, for a finite nonzero double, the decimal with the fewest digits among those that
round to it, and of these the one nearest to it. The doubles that round to a position reach from
the midpoint below it to the midpoint above it, the midpoints themselves included just when the
position is even. All comparisons are exact, between natural numbers.
-/

namespace Colloquy

/-- Which of two equally near decimals is taken. -/
inductive Tie
  /-- The larger one. -/
  | up
  /-- The one whose last digit is even. -/
  | even
deriving DecidableEq, Repr

namespace Shortest

/-- A decimal unit fine enough for the digits of every double: `10 ^ -350`. -/
def scale : Nat := Nat.pow 10 350

/-- Whether a decimal, counted in `10 ^ -350`, rounds to the position. -/
def roundsTo (position decimal : Nat) : Bool :=
  let low := (Binary64.units (position - 1) + Binary64.units position) * scale
  let high := (Binary64.units position + Binary64.units (position + 1)) * scale
  let candidate := decimal * Nat.pow 2 1075
  if position % 2 = 0 then low ≤ candidate && candidate ≤ high
  else low < candidate && candidate < high

/-- The decimals next to the value of a position among the multiples of `step`, and of those that
round to it the nearer one. -/
def onGrid? (tie : Tie) (position step : Nat) : Option Nat :=
  let below := Binary64.units position * scale / Nat.pow 2 1074 / step
  let above := below + 1
  match roundsTo position (below * step), roundsTo position (above * step) with
  | false, false => none
  | true, false => some below
  | false, true => some above
  | true, true =>
    -- Both read back, so the nearer one is written.
    let toBelow := Binary64.units position * scale - below * step * Nat.pow 2 1074
    let toAbove := above * step * Nat.pow 2 1074 - Binary64.units position * scale
    if toBelow < toAbove then some below
    else if toAbove < toBelow then some above
    else match tie with
      | .up => some above
      | .even => some (if below % 2 = 0 then below else above)

/-- Moves zeros at the end of the digits into the exponent. -/
def trimZeros (digits : Nat) (exponent : Int) : Nat × Int :=
  if digits ≠ 0 ∧ digits % 10 = 0 then trimZeros (digits / 10) (exponent + 1)
  else (digits, exponent)
termination_by digits
decreasing_by omega

/-- Tries ever finer grids, of `count`, `count + 1`, … digits, with `tries` left. -/
def search (tie : Tie) (position size : Nat) : Nat → Nat → Nat × Int
  | _, 0 => (0, 0)
  | count, tries + 1 =>
    match onGrid? tie position (Nat.pow 10 (size - count)) with
    | some digits => trimZeros digits ((size : Int) - count - 350)
    | none => search tie position size (count + 1) tries

end Shortest

/-- The shortest digits of the double at a position and the power of ten that scales them.
Seventeen digits tell any two doubles apart, so a longer search is never needed. -/
def shortest (tie : Tie) (position : Nat) : Nat × Int :=
  let whole := Binary64.units position * Shortest.scale / Nat.pow 2 1074
  let size := (Nat.toDigits 10 whole).length
  Shortest.search tie position size 1 17

end Colloquy
