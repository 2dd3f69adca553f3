import Colloquy.Number.Decimal

/-!
# Indices as players type them

An index is a nonempty string of ASCII digits, with or without a plus sign, below `2 ^ 64`.
-/

namespace Colloquy

/-- The bound of all indices. -/
def indexBound : Nat := Nat.pow 2 64

/-- Digits that stand for an index. -/
def indexOfDigits? (digits : List Char) : Option Nat :=
  if digits ≠ [] ∧ digits.all Decimal.isDigit ∧ Decimal.valueOf digits < indexBound then
    some (Decimal.valueOf digits)
  else none

/-- The index that a text stands for. -/
def index? (text : String) : Option Nat :=
  match text.toList with
  | '+' :: digits => indexOfDigits? digits
  | digits => indexOfDigits? digits

end Colloquy
