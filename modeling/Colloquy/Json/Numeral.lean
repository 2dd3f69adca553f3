import Colloquy.Number.Layout

/-!
# Numbers in documents

A numeral is an optional minus sign, digits without a superfluous leading zero, an optional
fraction and an optional exponent. Two readings of it are in use.

* `natural?` is for counts and indices: a plain numeral below `2 ^ 64`.
* `float?` is for quantities. An integer below `2 ^ 64` in size is rounded once. Any other numeral
  is read to *best effort*: its leading digits are taken as an integer as long as it stays below
  `2 ^ 64`, that integer is rounded to a double, and the double is multiplied or divided by a
  rounded power of ten. A numeral beyond the range of doubles has no reading.
-/

namespace Colloquy

/-- A number as a document writes it. -/
structure Numeral where
  negative : Bool
  whole : List Char
  /-- The digits after the point; none if there is no point. -/
  fraction : List Char
  /-- The sign and the digits of the exponent. -/
  exponent : Option (Bool × List Char)
deriving DecidableEq, Repr

namespace Numeral

/-- A mark followed by an optionally signed nonempty string of digits, or nothing. -/
def exponentPart? : List Char → Option (Option (Bool × List Char))
  | [] => some none
  | c :: rest =>
    if c = 'e' ∨ c = 'E' then
      let (negative, digits) := Decimal.splitSign rest
      if digits ≠ [] ∧ digits.all Decimal.isDigit then some (some (negative, digits)) else none
    else none

/-- A numeral without its sign. -/
def unsigned? (negative : Bool) (cs : List Char) : Option Numeral :=
  let whole := cs.takeWhile Decimal.isDigit
  if whole = [] ∨ (whole.head? = some '0' ∧ whole.length ≠ 1) then none
  else match cs.dropWhile Decimal.isDigit with
    | '.' :: rest =>
      let fraction := rest.takeWhile Decimal.isDigit
      if fraction = [] then none
      else (exponentPart? (rest.dropWhile Decimal.isDigit)).map fun e =>
        ⟨negative, whole, fraction, e⟩
    | rest => (exponentPart? rest).map fun e => ⟨negative, whole, [], e⟩

/-- Reads a numeral; `none` for any other text. -/
def ofChars? : List Char → Option Numeral
  | '-' :: rest => unsigned? true rest
  | cs => unsigned? false cs

/-- Whether there is neither fraction nor exponent. -/
def isInteger (n : Numeral) : Bool := n.fraction.isEmpty && n.exponent.isNone

/-- The bound of the integers that are taken exactly. -/
def wordBound : Nat := Nat.pow 2 64

/-- The reading as a count. -/
def natural? (n : Numeral) : Option Nat :=
  if n.isInteger ∧ n.negative = false ∧ Decimal.valueOf n.whole < wordBound then
    some (Decimal.valueOf n.whole)
  else none

/-- Appends digits to an integer as long as it stays below `2 ^ 64`; the result, and the digits
that did not fit. -/
def takeDigits (value : Nat) : List Char → Nat × List Char
  | [] => (value, [])
  | c :: rest =>
    let next := 10 * value + Decimal.digitValue c
    if next < wordBound then takeDigits next rest else (value, c :: rest)

/-- The double nearest to a power of ten. -/
def powerOfTen (exponent : Nat) : Float := Decimal.toFloat ⟨false, 1, exponent⟩

/-- Scales by a power of ten in steps that doubles can express; `none` beyond their range. -/
def scale (x : Float) (exponent : Int) : Option Float :=
  if exponent < -308 then
    if x == 0 then some x else scale (x / powerOfTen 308) (exponent + 308)
  else if exponent < 0 then some (x / powerOfTen (-exponent).toNat)
  else if exponent ≤ 308 then
    let y := x * powerOfTen exponent.toNat
    if Binary64.isFinite y then some y else none
  else if x == 0 then some x else none
termination_by (-exponent).toNat
decreasing_by omega

/-- The bound of the exponents that are added up exactly. -/
def exponentBound : Nat := Nat.pow 2 31

/-- The reading of leading digits and exponent to best effort. -/
def bestEffort (n : Numeral) : Option Float :=
  let (leading, dropped) := takeDigits 0 n.whole
  let (leading, left) := takeDigits leading n.fraction
  let base : Int := (dropped.length : Int) - (n.fraction.length - left.length : Nat)
  match n.exponent with
  | none => scale (Binary64.ofNat leading) base
  | some (negative, digits) =>
    let exponent := Decimal.valueOf digits
    if exponent < exponentBound then
      scale (Binary64.ofNat leading) (if negative then base - exponent else base + exponent)
    -- Such an exponent decides alone, unless there is nothing to scale.
    else if leading ≠ 0 ∧ negative = false then none
    else some 0

/-- The reading as a quantity. -/
def float? (n : Numeral) : Option Float :=
  let magnitude :=
    if n.isInteger ∧ Decimal.valueOf n.whole < wordBound then
      some (Binary64.ofNat (Decimal.valueOf n.whole))
    else n.bestEffort
  magnitude.map fun x => if n.negative then -x else x

end Numeral

end Colloquy
