import Colloquy.Expr.Reader
import Colloquy.Number.Layout
import Colloquy.Proofs.Number.Grammar
import Mathlib.Computability.RegularExpressions

/-!
# Which atoms are numbers

An atom can be told to be a number by two recognisers that know nothing of each other: a pattern, whose
digits are those of all scripts, and a reader of numbers, which alone takes the names of what no numeral
stands for. Neither of them is the grammar, and both together are (`ReadsNumerals.isNumeral_iff`): the
reader refuses the digits that are not ASCII, and the pattern the names.

Main statement, `atom_is_number_iff_numeral`: `classifyAtom` does what the two do, whatever reader is
taken that accepts every numeral and refuses other digits, and an atom is a number exactly when it is a
numeral over the ASCII digits.
-/

namespace Colloquy

open Decimal (IsDigits IsSign IsMantissa IsExponent IsNumeral IsAsciiNumeral isDigit)
open RegularExpression (char star rmatch_iff_matches')

namespace Decimal

/-! ## The pattern -/

section Pattern

/-- A sign, or nothing: `[+-]?`. -/
def signPattern : RegularExpression Char := 1 + (char '+' + char '-')

variable (digits : List Char)

/-- Any of the digits: `\d`. -/
def digitPattern : RegularExpression Char := (digits.map char).sum

/-- One digit or more: `\d+`. -/
def digitsPattern : RegularExpression Char := digitPattern digits * star (digitPattern digits)

/-- Digits with at most one point: `\d+(\.\d*)?|\.\d+`. -/
def mantissaPattern : RegularExpression Char :=
  digitsPattern digits * (1 + char '.' * star (digitPattern digits)) +
    char '.' * digitsPattern digits

/-- An exponent, or nothing: `([eE][+-]?\d+)?`. -/
def exponentPattern : RegularExpression Char :=
  1 + (char 'e' + char 'E') * (signPattern * digitsPattern digits)

/-- The whole pattern: `[+-]?(\d+(\.\d*)?|\.\d+)([eE][+-]?\d+)?`. -/
def numeralPattern : RegularExpression Char :=
  signPattern * (mantissaPattern digits * exponentPattern digits)

end Pattern

variable {digits cs : List Char}

theorem mem_char_iff {c : Char} : cs ∈ (char c).matches' ↔ cs = [c] := Iff.rfl

theorem mem_signPattern_iff : cs ∈ signPattern.matches' ↔ IsSign cs := by
  unfold signPattern
  rw [RegularExpression.matches'_add, RegularExpression.matches'_add, Language.mem_add,
    Language.mem_add, mem_char_iff, mem_char_iff]
  constructor
  · rintro (rfl | rfl | rfl)
    · exact .absent
    · exact .plus
    · exact .minus
  · rintro ⟨⟩
    · exact .inl rfl
    · exact .inr (.inl rfl)
    · exact .inr (.inr rfl)

theorem mem_digitPattern_iff : cs ∈ (digitPattern digits).matches' ↔ ∃ c ∈ digits, cs = [c] := by
  unfold digitPattern
  induction digits with
  | nil =>
    refine iff_of_false (Language.notMem_zero cs) ?_
    simp
  | cons first rest ih =>
    rw [List.map_cons, List.sum_cons, RegularExpression.matches'_add, Language.mem_add, ih,
      mem_char_iff]
    simp

theorem mem_star_iff : cs ∈ (star (digitPattern digits)).matches' ↔ ∀ c ∈ cs, c ∈ digits := by
  rw [RegularExpression.matches'_star, Language.mem_kstar]
  constructor
  · rintro ⟨parts, rfl, hparts⟩ c hc
    obtain ⟨part, hpart, hc⟩ := List.mem_flatten.mp hc
    obtain ⟨d, hd, rfl⟩ := mem_digitPattern_iff.mp (hparts part hpart)
    obtain rfl := List.mem_singleton.mp hc
    exact hd
  · intro hdigits
    have hsingle : cs = (cs.map fun c => [c]).flatten := by
      rw [← List.flatMap_def, List.flatMap_singleton']
    refine ⟨_, hsingle, fun part hpart => ?_⟩
    obtain ⟨c, hc, rfl⟩ := List.mem_map.mp hpart
    exact mem_digitPattern_iff.mpr ⟨c, hdigits c hc, rfl⟩

theorem mem_digitsPattern_iff :
    cs ∈ (digitsPattern digits).matches' ↔ IsDigits (· ∈ digits) cs := by
  unfold digitsPattern
  rw [RegularExpression.matches'_mul, Language.mem_mul]
  constructor
  · rintro ⟨first, hfirst, rest, hrest, rfl⟩
    obtain ⟨c, hc, rfl⟩ := mem_digitPattern_iff.mp hfirst
    exact ⟨List.cons_ne_nil _ _, List.forall_mem_cons.mpr ⟨hc, mem_star_iff.mp hrest⟩⟩
  · rintro ⟨hnonempty, hdigits⟩
    obtain ⟨first, rest, rfl⟩ := List.exists_cons_of_ne_nil hnonempty
    obtain ⟨hfirst, hrest⟩ := List.forall_mem_cons.mp hdigits
    exact ⟨[first], mem_digitPattern_iff.mpr ⟨first, hfirst, rfl⟩, rest, mem_star_iff.mpr hrest, rfl⟩

theorem mem_mantissaPattern_iff :
    cs ∈ (mantissaPattern digits).matches' ↔ IsMantissa (· ∈ digits) cs := by
  unfold mantissaPattern
  simp only [RegularExpression.matches'_add, RegularExpression.matches'_mul, Language.mem_add,
    Language.mem_mul, RegularExpression.matches'_epsilon, Language.mem_one, mem_char_iff,
    mem_digitsPattern_iff, mem_star_iff]
  constructor
  · rintro (⟨whole, hwhole, rest, rfl | ⟨_, rfl, fraction, hfraction, rfl⟩, rfl⟩ |
      ⟨_, rfl, fraction, hfraction, rfl⟩)
    · rw [List.append_nil]
      exact .whole hwhole
    · exact .point hwhole hfraction
    · exact .fraction hfraction
  · rintro (⟨hwhole⟩ | ⟨hwhole, hfraction⟩ | ⟨hfraction⟩)
    · exact .inl ⟨_, hwhole, [], .inl rfl, List.append_nil _⟩
    · exact .inl ⟨_, hwhole, _, .inr ⟨_, rfl, _, hfraction, rfl⟩, rfl⟩
    · exact .inr ⟨_, rfl, _, hfraction, rfl⟩

theorem mem_exponentPattern_iff :
    cs ∈ (exponentPattern digits).matches' ↔ IsExponent (· ∈ digits) cs := by
  unfold exponentPattern
  simp only [RegularExpression.matches'_add, RegularExpression.matches'_mul, Language.mem_add,
    Language.mem_mul, RegularExpression.matches'_epsilon, Language.mem_one, mem_char_iff,
    mem_digitsPattern_iff, mem_signPattern_iff]
  constructor
  · rintro (rfl | ⟨_, rfl | rfl, _, ⟨sign, hsign, more, hmore, rfl⟩, rfl⟩)
    · exact .absent
    · show IsExponent _ ('e' :: (sign ++ more))
      exact .present (.inl rfl) hsign hmore
    · show IsExponent _ ('E' :: (sign ++ more))
      exact .present (.inr rfl) hsign hmore
  · rintro (_ | ⟨rfl | rfl, hsign, hmore⟩)
    · exact .inl rfl
    · exact .inr ⟨_, .inl rfl, _, ⟨_, hsign, _, hmore, rfl⟩, rfl⟩
    · exact .inr ⟨_, .inr rfl, _, ⟨_, hsign, _, hmore, rfl⟩, rfl⟩

/-- The pattern matches the numerals over its digits. -/
theorem rmatch_numeralPattern_iff :
    (numeralPattern digits).rmatch cs = true ↔ IsNumeral (· ∈ digits) cs := by
  unfold numeralPattern
  rw [rmatch_iff_matches']
  simp only [RegularExpression.matches'_mul, Language.mem_mul, mem_signPattern_iff,
    mem_mantissaPattern_iff, mem_exponentPattern_iff]
  constructor
  · rintro ⟨sign, hsign, _, ⟨mantissa, hmantissa, exponent, hexponent, rfl⟩, rfl⟩
    exact .mk hsign hmantissa hexponent
  · rintro ⟨hsign, hmantissa, hexponent⟩
    exact ⟨_, hsign, _, ⟨_, hmantissa, _, hexponent, rfl⟩, rfl⟩

end Decimal

/-! ## Two recognisers -/

/-- The expression of an atom by a pattern over some digits and a reader of numbers: a number where the
atom passes both, and a symbol otherwise. -/
def classifyBy (digits : List Char) (parse : String → Option Float) (chars : List Char) : Expr :=
  if (Decimal.numeralPattern digits).rmatch chars then
    match parse (String.ofList chars) with
    | some x => .number x
    | none => .symbol (String.ofList chars)
  else .symbol (String.ofList chars)

/-- What the two recognisers have to do with numerals. Among the ASCII characters the digits of the
pattern are the usual ones. The reader accepts every numeral over these, and refuses a text with any
other of the digits. What else it accepts is up to it. -/
structure ReadsNumerals (digits : List Char) (parse : String → Option Float) : Prop where
  ascii : ∀ c : Char, c.toNat < 128 → (c ∈ digits ↔ isDigit c = true)
  accepts : ∀ cs, IsAsciiNumeral cs → (parse (String.ofList cs)).isSome = true
  rejects : ∀ cs : List Char, (∃ c ∈ cs, c ∈ digits ∧ 128 ≤ c.toNat) →
    parse (String.ofList cs) = none

section Recognisers

variable {digits : List Char} {parse : String → Option Float} {cs : List Char}

/-- What passes both recognisers is a numeral, and every numeral does. -/
theorem ReadsNumerals.isNumeral_iff (h : ReadsNumerals digits parse) :
    (Decimal.numeralPattern digits).rmatch cs = true ∧ (parse (String.ofList cs)).isSome = true ↔
      IsAsciiNumeral cs := by
  rw [Decimal.rmatch_numeralPattern_iff]
  constructor
  · rintro ⟨hnumeral, haccepted⟩
    refine hnumeral.of_digits fun c hc hdigit => ?_
    -- a digit that is not ASCII would have been refused
    by_contra hother
    have hlarge : 128 ≤ c.toNat := by
      by_contra hsmall
      exact hother ((h.ascii c (Nat.lt_of_not_le hsmall)).mp hdigit)
    rw [h.rejects cs ⟨c, hc, hdigit, hlarge⟩] at haccepted
    cases haccepted
  · intro hnumeral
    refine ⟨hnumeral.of_digits fun c _ hdigit => ?_, h.accepts cs hnumeral⟩
    exact (h.ascii c (Decimal.toNat_lt_of_isDigit hdigit)).mpr hdigit

/-- A numeral is classified as the number that is read from it. -/
theorem ReadsNumerals.classifyBy_of_numeral (h : ReadsNumerals digits parse)
    (hnumeral : IsAsciiNumeral cs) :
    ∃ x, parse (String.ofList cs) = some x ∧ classifyBy digits parse cs = .number x := by
  obtain ⟨hmatch, haccepted⟩ := h.isNumeral_iff.mpr hnumeral
  obtain ⟨x, hx⟩ := Option.isSome_iff_exists.mp haccepted
  refine ⟨x, hx, ?_⟩
  unfold classifyBy
  rw [if_pos hmatch, hx]

/-- Any other atom is a symbol. -/
theorem ReadsNumerals.classifyBy_of_other (h : ReadsNumerals digits parse)
    (hother : ¬ IsAsciiNumeral cs) : classifyBy digits parse cs = .symbol (String.ofList cs) := by
  unfold classifyBy
  split
  · next hmatch =>
    cases hparse : parse (String.ofList cs) with
    | none => rfl
    | some x =>
      refine absurd (h.isNumeral_iff.mp ⟨hmatch, ?_⟩) hother
      rw [hparse]
      rfl
  · rfl

end Recognisers

/-! ## The reader in use -/

section Reader

variable {cs : List Char}

/-- Only the ASCII letters have another case here. -/
theorem toLower_of_large {c : Char} (hlarge : 128 ≤ c.toNat) : c.toLower = c := by
  unfold Char.toLower
  rw [dif_neg]
  rintro ⟨-, hle⟩
  have hsmall : c.toNat ≤ 'Z'.toNat := UInt32.le_iff_toNat_le.mp hle
  exact absurd (Nat.le_trans hlarge hsmall) (by decide)

/-- The names of what no numeral stands for are ASCII. -/
theorem Number.named?_eq_none (negative : Bool) (hlarge : ∃ c ∈ cs, 128 ≤ c.toNat) :
    Number.named? negative cs = none := by
  obtain ⟨c, hc, hlarge⟩ := hlarge
  have hother (name : String) (hascii : name.toList.all (fun d => decide (d.toNat < 128)) = true) :
      String.ofList (cs.map Char.toLower) ≠ name := by
    rintro rfl
    rw [String.toList_ofList] at hascii
    have hsmall := List.all_eq_true.mp hascii _ (List.mem_map_of_mem hc)
    rw [toLower_of_large hlarge] at hsmall
    exact absurd hlarge (Nat.not_le_of_lt (of_decide_eq_true hsmall))
  unfold Number.named?
  dsimp only
  rw [if_neg, if_neg]
  · exact hother "nan" rfl
  · rintro (hname | hname)
    · exact hother "inf" rfl hname
    · exact hother "infinity" rfl hname

/-- A text with a character that is not ASCII is refused. -/
theorem Number.ofText?_eq_none (hlarge : ∃ c ∈ cs, 128 ≤ c.toNat) :
    Number.ofText? (String.ofList cs) = none := by
  obtain ⟨c, hc, hlarge⟩ := hlarge
  have hnone : Decimal.ofChars? cs = none := by
    rw [← Option.not_isSome_iff_eq_none, Decimal.isSome_ofChars?_iff]
    exact fun hnumeral => absurd hlarge (Nat.not_le_of_lt (hnumeral.isAscii c hc))
  obtain ⟨sign, hsign, hcs⟩ := Decimal.splitSign_spec cs
  have hrest : c ∈ (Decimal.splitSign cs).2 := by
    rw [hcs] at hc
    refine (List.mem_append.mp hc).resolve_left fun hc => ?_
    have hmark := hsign.chars c hc
    simp only [List.mem_cons, List.not_mem_nil, or_false] at hmark
    rcases hmark with rfl | rfl <;> exact absurd hlarge (by decide)
  unfold Number.ofText?
  rw [String.toList_ofList, hnone]
  exact Number.named?_eq_none _ ⟨c, hrest, hlarge⟩

/-- The reader of numbers in use accepts numerals, and the names above. -/
theorem readsNumerals_ofText? {digits : List Char}
    (hascii : ∀ c : Char, c.toNat < 128 → (c ∈ digits ↔ isDigit c = true)) :
    ReadsNumerals digits Number.ofText? := by
  refine ⟨hascii, fun cs hnumeral => ?_, fun cs hother => ?_⟩
  · obtain ⟨d, hd⟩ := Option.isSome_iff_exists.mp (Decimal.isSome_ofChars?_iff.mpr hnumeral)
    unfold Number.ofText?
    rw [String.toList_ofList, hd]
    rfl
  · obtain ⟨c, hc, -, hlarge⟩ := hother
    exact Number.ofText?_eq_none ⟨c, hc, hlarge⟩

/-- Atoms are classified as the two recognisers do it. -/
theorem classifyAtom_eq {digits : List Char}
    (hascii : ∀ c : Char, c.toNat < 128 → (c ∈ digits ↔ isDigit c = true)) :
    classifyAtom cs = classifyBy digits Number.ofText? cs := by
  have h := readsNumerals_ofText? hascii
  unfold classifyAtom
  cases hread : Decimal.ofChars? cs with
  | some d =>
    have hnumeral : IsAsciiNumeral cs := by
      rw [← Decimal.isSome_ofChars?_iff, hread]
      rfl
    obtain ⟨x, hx, hnumber⟩ := h.classifyBy_of_numeral hnumeral
    -- the reader reads the same decimal, and makes the same number of it
    unfold Number.ofText? at hx
    rw [String.toList_ofList, hread] at hx
    rw [hnumber, ← Option.some.inj hx]
  | none =>
    rw [h.classifyBy_of_other]
    rw [← Decimal.isSome_ofChars?_iff, hread]
    simp

end Reader

/-! ## Atoms -/

theorem ReadsNumerals.classifies {digits : List Char} {parse : String → Option Float}
    (h : ReadsNumerals digits parse) (cs : List Char) :
    ((∃ x, classifyBy digits parse cs = .number x) ↔ IsAsciiNumeral cs) ∧
      (¬ IsAsciiNumeral cs → classifyBy digits parse cs = .symbol (String.ofList cs)) := by
  refine ⟨⟨?_, fun hnumeral => ?_⟩, h.classifyBy_of_other⟩
  · rintro ⟨x, hnumber⟩
    by_contra hother
    rw [h.classifyBy_of_other hother] at hnumber
    cases hnumber
  · obtain ⟨x, -, hnumber⟩ := h.classifyBy_of_numeral hnumeral
    exact ⟨x, hnumber⟩

/-- **Atoms are numbers exactly on the decimal grammar.** Take any digits for the pattern that are the
usual ones among the ASCII characters, and any reader of numbers that accepts the numerals over these
and refuses other digits. An atom is then classified as a number just when it is an optional sign,
digits with an optional point behind or among them or a point in front of them, and optionally a mark of
an exponent with an optional sign and digits, all digits being ASCII. Any other atom is the symbol with
just its text. `classifyAtom` does the same, and it does it as the two recognisers do. -/
theorem atom_is_number_iff_numeral {digits : List Char} {parse : String → Option Float}
    (h : ReadsNumerals digits parse) (cs : List Char) :
    ((∃ x, classifyBy digits parse cs = .number x) ↔ IsAsciiNumeral cs) ∧
    (¬ IsAsciiNumeral cs → classifyBy digits parse cs = .symbol (String.ofList cs)) ∧
    classifyAtom cs = classifyBy digits Number.ofText? cs ∧
    ((∃ x, classifyAtom cs = .number x) ↔ IsAsciiNumeral cs) ∧
    (¬ IsAsciiNumeral cs → classifyAtom cs = .symbol (String.ofList cs)) := by
  have hreader := (readsNumerals_ofText? h.ascii).classifies cs
  rw [← classifyAtom_eq h.ascii] at hreader
  exact ⟨(h.classifies cs).1, (h.classifies cs).2, classifyAtom_eq h.ascii, hreader.1, hreader.2⟩

/-- The digits of two scripts. -/
def digitsOfTwoScripts : List Char :=
  ['0', '1', '2', '3', '4', '5', '6', '7', '8', '9',
    '٠', '١', '٢', '٣', '٤', '٥', '٦', '٧', '٨', '٩']

theorem ascii_digitsOfTwoScripts (c : Char) (hsmall : c.toNat < 128) :
    c ∈ digitsOfTwoScripts ↔ isDigit c = true := by
  have hall : ∀ n < 128, Char.ofNat n ∈ digitsOfTwoScripts ↔ isDigit (Char.ofNat n) = true := by
    decide +kernel
  have hc := hall c.toNat hsmall
  rwa [Char.ofNat_toNat] at hc

/-- A digit of another script passes the pattern and makes a symbol all the same; a numeral without
digits in front of its point is a number. -/
theorem atom_is_number_of_two_scripts :
    ReadsNumerals digitsOfTwoScripts Number.ofText? ∧
      (Decimal.numeralPattern digitsOfTwoScripts).rmatch ['1', '٢'] = true ∧
      classifyAtom ['1', '٢'] = .symbol "1٢" ∧
      ∃ x, classifyAtom ['-', '.', '5', 'e', '+', '3'] = .number x := by
  have h : ReadsNumerals digitsOfTwoScripts Number.ofText? :=
    readsNumerals_ofText? ascii_digitsOfTwoScripts
  have hother : ¬ IsAsciiNumeral ['1', '٢'] := by
    rw [← Decimal.isSome_ofChars?_iff]
    decide
  have hnumeral : IsAsciiNumeral ['-', '.', '5', 'e', '+', '3'] :=
    Decimal.isSome_ofChars?_iff.mp (by decide)
  refine ⟨h, by decide +kernel, ?_, ?_⟩
  · exact (atom_is_number_iff_numeral h _).2.2.2.2 hother
  · exact (atom_is_number_iff_numeral h _).2.2.2.1.mpr hnumeral

end Colloquy
