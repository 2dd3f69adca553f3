import Colloquy.Number.Binary64

/-!
# Decimal numerals

A numeral is an optional sign, digits with at most one point among or around them, and an optional
exponent; `Decimal.ofChars?` reads exactly this grammar, over the ASCII digits alone, and keeps
the exact decimal value. `Decimal.toFloat` is the double nearest to that value, so a numeral beyond
the range of doubles is an infinity and one far below it is a zero of its sign.
-/

namespace Colloquy

/-- The decimal `± digits * 10 ^ exponent`. The sign is kept apart since zero has one. -/
structure Decimal where
  negative : Bool
  digits : Nat
  exponent : Int
deriving DecidableEq, Repr

namespace Decimal

/-- The ten ASCII digits. -/
def isDigit (c : Char) : Bool := '0' ≤ c && c ≤ '9'

/-- The number that a digit stands for. -/
def digitValue (c : Char) : Nat := c.toNat - '0'.toNat

/-- The number that a string of digits stands for. -/
def valueOf (digits : List Char) : Nat :=
  digits.foldl (fun value c => 10 * value + digitValue c) 0

/-- Takes an optional sign off the front. -/
def splitSign : List Char → Bool × List Char
  | '-' :: rest => (true, rest)
  | '+' :: rest => (false, rest)
  | rest => (false, rest)

/-- A signed nonempty string of digits. -/
def integer? (cs : List Char) : Option Int :=
  let (negative, digits) := splitSign cs
  if digits ≠ [] ∧ digits.all isDigit then
    some (if negative then -(valueOf digits : Int) else valueOf digits)
  else none

/-- What follows the digits: nothing, or a mark and an integer. -/
def exponent? : List Char → Option Int
  | [] => some 0
  | c :: rest => if c = 'e' ∨ c = 'E' then integer? rest else none

/-- A numeral without its sign. -/
def unsigned? (negative : Bool) (cs : List Char) : Option Decimal :=
  let whole := cs.takeWhile isDigit
  match cs.dropWhile isDigit with
  | '.' :: rest =>
    let fraction := rest.takeWhile isDigit
    if whole = [] ∧ fraction = [] then none
    else (exponent? (rest.dropWhile isDigit)).map fun e =>
      ⟨negative, valueOf (whole ++ fraction), e - fraction.length⟩
  | rest =>
    if whole = [] then none
    else (exponent? rest).map fun e => ⟨negative, valueOf whole, e⟩

/-- Reads a numeral; `none` for any other text. -/
def ofChars? (cs : List Char) : Option Decimal :=
  let (negative, rest) := splitSign cs
  unsigned? negative rest

/-- The position of the double nearest to the decimal, sign apart. Exponents far outside the range
of doubles are settled without computing the power: a nonzero decimal is at least
`10 ^ exponent`, and it is below `10 ^ (exponent + log2 digits + 1)`. -/
def position (d : Decimal) : Nat :=
  if d.digits = 0 then 0
  else if 400 < d.exponent then Binary64.infinity
  else if d.exponent + Nat.log2 d.digits + 1 < -400 then 0
  else
    Binary64.nearest (d.digits * Nat.pow 2 1074 * Nat.pow 10 d.exponent.toNat)
      (Nat.pow 10 (-d.exponent).toNat)

/-- The nearest double. -/
def toFloat (d : Decimal) : Float := Binary64.toFloat d.negative d.position

end Decimal

end Colloquy
