/-!
# The grid of double-precision numbers

A finite nonnegative double is a natural number of *units*, each worth `2 ^ -1074`. Its bit
pattern, read as a natural number, is its position on the grid: `units` is increasing in the
position, and the position after the last finite one is infinity.

`nearest` goes the other way. It takes an exact quotient of units to the closest position; a
quotient halfway between two positions goes to the even one, and one beyond the last finite
position goes to infinity.
-/

namespace Colloquy.Binary64

/-- The position of infinity, one past the last finite position. -/
def infinity : Nat := 2047 * Nat.pow 2 52

/-- The value at a position, in units of `2 ^ -1074`: below `2 ^ 53` every unit has a position,
and each further block of `2 ^ 52` positions is spaced twice as wide as the one before. -/
def units (position : Nat) : Nat :=
  let block := position / Nat.pow 2 52
  let offset := position % Nat.pow 2 52
  if block = 0 then offset else (Nat.pow 2 52 + offset) * Nat.pow 2 (block - 1)

/-- The integer nearest to a quotient; a half goes to the even neighbour. -/
def roundHalfEven (num den : Nat) : Nat :=
  let quotient := num / den
  let twice := 2 * (num % den)
  if twice < den then quotient
  else if den < twice then quotient + 1
  else quotient + quotient % 2

/-- The position nearest to `num / den` units. -/
def nearest (num den : Nat) : Nat :=
  -- Positions this far up are `2 ^ shift` units apart; rounding up past the last of them lands
  -- on the first position of the next block, as it should.
  let shift := Nat.log2 (num / den) - 52
  min (shift * Nat.pow 2 52 + roundHalfEven num (den * Nat.pow 2 shift)) infinity

/-- The double at a position, with the given sign. -/
def toFloat (negative : Bool) (position : Nat) : Float :=
  Float.ofBits (UInt64.ofNat ((if negative then Nat.pow 2 63 else 0) + position))

/-- Whether the sign bit is set. -/
def isNegative (x : Float) : Bool := Nat.pow 2 63 ≤ x.toBits.toNat

/-- The position of a double without its sign; it is above `infinity` for what is not a number. -/
def positionOf (x : Float) : Nat := x.toBits.toNat % Nat.pow 2 63

/-- Whether a double is a number other than the infinities. -/
def isFinite (x : Float) : Bool := positionOf x < infinity

/-- The natural number rounded to a double. -/
def ofNat (n : Nat) : Float := toFloat false (nearest (n * Nat.pow 2 1074) 1)

end Colloquy.Binary64
