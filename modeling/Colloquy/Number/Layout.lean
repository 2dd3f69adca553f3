import Colloquy.Number.Decimal
import Colloquy.Number.Shortest

/-!
# Writing numbers

A `Layout` is what one written form of numbers decides for itself: which magnitudes are written
positionally, how a whole number ends, the look of the exponent and the side on which a tie
falls. The digits are in every layout the shortest ones that read back as the same double.

Three layouts are in use: `plain` (scripts, messages and screens), `marked` (variables named in a
failed expectation) and `document` (save files and other documents).
-/

namespace Colloquy

/-- The decisions of one written form of numbers. -/
structure Layout where
  /-- Which of two equally near shortest decimals is written. -/
  tie : Tie
  /-- Whether a number is written positionally when its point stands after this many digits
  (a count at or below zero puts zeros between the point and the digits). -/
  positional : Int → Bool
  /-- What ends a whole number in positional form. -/
  wholeMark : String
  /-- What stands between the exponent mark and a nonnegative exponent. -/
  exponentPlus : String

namespace Layout

/-- Always positional, and whole numbers without a point. -/
def plain : Layout := ⟨.up, fun _ => true, "", ""⟩

/-- Positional from `1e-4` up to below `1e16`, where whole numbers end in `.0`. -/
def marked : Layout := ⟨.up, fun point => -3 ≤ point ∧ point ≤ 16, ".0", ""⟩

/-- Positional from `1e-5` up to below `1e16`, where whole numbers end in `.0`; otherwise with a
plus sign before a positive exponent. Ties go to even. -/
def document : Layout := ⟨.even, fun point => -4 ≤ point ∧ point ≤ 16, ".0", "+"⟩

/-- The digits with the point after the first `point` of them. -/
def positionalText (layout : Layout) (digits : List Char) (point : Int) : String :=
  let size : Int := digits.length
  if point ≤ 0 then "0." ++ String.ofList (List.replicate (-point).toNat '0' ++ digits)
  else if size ≤ point then
    String.ofList (digits ++ List.replicate (point - size).toNat '0') ++ layout.wholeMark
  else
    String.ofList (digits.take point.toNat) ++ "." ++ String.ofList (digits.drop point.toNat)

/-- One digit before the point, and an exponent. -/
def scientificText (layout : Layout) (digits : List Char) (point : Int) : String :=
  let mantissa := match digits with
    | first :: next :: rest => String.ofList (first :: '.' :: next :: rest)
    | _ => String.ofList digits
  let exponent := point - 1
  mantissa ++ "e" ++ (if exponent < 0 then "-" else layout.exponentPlus) ++ toString exponent.natAbs

/-- A finite number without its sign, given by its position. -/
def magnitude (layout : Layout) (position : Nat) : String :=
  if position = 0 then "0" ++ layout.wholeMark
  else
    let (digits, exponent) := shortest layout.tie position
    let chars := Nat.toDigits 10 digits
    let point := exponent + chars.length
    if layout.positional point then layout.positionalText chars point
    else layout.scientificText chars point

/-- A finite number. -/
def finite (layout : Layout) (x : Float) : String :=
  (if Binary64.isNegative x then "-" else "") ++ layout.magnitude (Binary64.positionOf x)

/-- Any double: infinities and what is not a number by name. -/
def write (layout : Layout) (x : Float) : String :=
  if Binary64.isFinite x then layout.finite x
  else if Binary64.positionOf x = Binary64.infinity then
    if Binary64.isNegative x then "-inf" else "inf"
  else "NaN"

end Layout

namespace Number

/-- The text of a number in scripts, messages and on screens. -/
def text (x : Float) : String := Layout.plain.write x

/-- The names of the doubles that no numeral stands for, in lower case. -/
def named? (negative : Bool) (cs : List Char) : Option Float :=
  let name := String.ofList (cs.map Char.toLower)
  if name = "inf" ∨ name = "infinity" then some (Binary64.toFloat negative Binary64.infinity)
  else if name = "nan" then some (0.0 / 0.0)
  else none

/-- Reads a numeral, or a signed name of an infinity or of what is not a number, in any case. -/
def ofText? (text : String) : Option Float :=
  match Decimal.ofChars? text.toList with
  | some d => some d.toFloat
  | none =>
    let (negative, rest) := Decimal.splitSign text.toList
    named? negative rest

end Number

end Colloquy
