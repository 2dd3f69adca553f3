import Colloquy.Json
import Colloquy.Json.Numeral

/-!
# Reading documents

A document text is first cut into marks, literals and words, and these are then taken one by one
with the containers still open on a stack. Each step says what may stand next, so no document is
read twice and any nesting is read to its end.
-/

namespace Colloquy.Json

/-- The pieces of a document text. -/
inductive Piece
  | openArray
  | closeArray
  | openObject
  | closeObject
  | comma
  | colon
  /-- A word, number or string. -/
  | scalar (value : Json)

/-- The blanks between pieces. -/
def isSpace (c : Char) : Bool := c = ' ' || c = '\n' || c = '\t' || c = '\r'

/-- The characters of number literals. -/
def isNumeralChar (c : Char) : Bool :=
  Decimal.isDigit c || c = '-' || c = '+' || c = '.' || c = 'e' || c = 'E'

/-- One character of a string literal, or a number written as a `\u` escape. -/
inductive StringUnit
  | char (c : Char)
  | code (n : Nat)

/-- The value of a hexadecimal digit. -/
def hexValue? (c : Char) : Option Nat :=
  if '0' ≤ c ∧ c ≤ '9' then some (c.toNat - '0'.toNat)
  else if 'a' ≤ c ∧ c ≤ 'f' then some (c.toNat - 'a'.toNat + 10)
  else if 'A' ≤ c ∧ c ≤ 'F' then some (c.toNat - 'A'.toNat + 10)
  else none

/-- The character that a one-letter escape stands for. -/
def escaped? (c : Char) : Option Char :=
  if c = '"' then some '"'
  else if c = '\\' then some '\\'
  else if c = '/' then some '/'
  else if c = 'b' then some '\x08'
  else if c = 'f' then some '\x0c'
  else if c = 'n' then some '\n'
  else if c = 'r' then some '\r'
  else if c = 't' then some '\t'
  else none

/-- The inside of a string literal, and what follows its closing quote. -/
def stringBody? : List Char → Option (List StringUnit × List Char)
  | [] => none
  | '"' :: rest => some ([], rest)
  | '\\' :: 'u' :: a :: b :: c :: d :: rest => do
    let a ← hexValue? a
    let b ← hexValue? b
    let c ← hexValue? c
    let d ← hexValue? d
    let (units, rest) ← stringBody? rest
    some (.code (((a * 16 + b) * 16 + c) * 16 + d) :: units, rest)
  | '\\' :: c :: rest => do
    let c ← escaped? c
    let (units, rest) ← stringBody? rest
    some (.char c :: units, rest)
  | c :: rest =>
    if c.toNat < 0x20 then none
    else do
      let (units, rest) ← stringBody? rest
      some (.char c :: units, rest)

/-- What follows a string literal is shorter than the literal and what follows it. -/
theorem length_lt_of_stringBody? {cs rest : List Char} {units : List StringUnit}
    (h : stringBody? cs = some (units, rest)) : rest.length < cs.length := by
  fun_induction stringBody? cs generalizing units with
  | case1 => simp at h
  | case2 r => simp only [Option.some.injEq, Prod.mk.injEq] at h; simp [h.2]
  | case3 a b c d r ih =>
    simp only [Option.bind_eq_bind, Option.bind_eq_some_iff, Option.some.injEq] at h
    obtain ⟨_, _, _, _, _, _, _, _, ⟨u, r'⟩, hb, h⟩ := h
    simp only [Prod.mk.injEq] at h
    have := ih (h.2 ▸ hb)
    simp only [List.length_cons]
    omega
  | case4 c r _ ih =>
    simp only [Option.bind_eq_bind, Option.bind_eq_some_iff, Option.some.injEq] at h
    obtain ⟨_, _, ⟨u, r'⟩, hb, h⟩ := h
    simp only [Prod.mk.injEq] at h
    have := ih (h.2 ▸ hb)
    simp only [List.length_cons]
    omega
  | case5 => simp at h
  | case6 =>
    rename_i ih
    simp only [Option.bind_eq_bind, Option.bind_eq_some_iff, Option.some.injEq] at h
    obtain ⟨⟨u, r'⟩, hb, h⟩ := h
    simp only [Prod.mk.injEq] at h
    have := ih (h.2 ▸ hb)
    simp only [List.length_cons]
    omega

/-- The text of a string literal: the halves of a surrogate pair stand for one character, and a
half on its own for none. -/
def textOf? : List StringUnit → Option (List Char)
  | [] => some []
  | .char c :: rest => (textOf? rest).map (c :: ·)
  | .code high :: .code low :: rest =>
    if 0xD800 ≤ high ∧ high < 0xDC00 then
      if 0xDC00 ≤ low ∧ low < 0xE000 then
        (textOf? rest).map (Char.ofNat (0x10000 + (high - 0xD800) * 0x400 + (low - 0xDC00)) :: ·)
      else none
    else if 0xDC00 ≤ high ∧ high < 0xE000 then none
    else (textOf? (.code low :: rest)).map (Char.ofNat high :: ·)
  | .code n :: rest =>
    if 0xD800 ≤ n ∧ n < 0xE000 then none else (textOf? rest).map (Char.ofNat n :: ·)

/-- Cuts a document text into pieces. -/
def pieces? (cs : List Char) : Option (List Piece) :=
  match cs with
  | [] => some []
  | c :: rest =>
    if isSpace c then pieces? rest
    else if c = '[' then (pieces? rest).map (.openArray :: ·)
    else if c = ']' then (pieces? rest).map (.closeArray :: ·)
    else if c = '\x7b' then (pieces? rest).map (.openObject :: ·)
    else if c = '\x7d' then (pieces? rest).map (.closeObject :: ·)
    else if c = ',' then (pieces? rest).map (.comma :: ·)
    else if c = ':' then (pieces? rest).map (.colon :: ·)
    else if c = '"' then
      match h : stringBody? rest with
      | none => none
      | some (units, left) =>
        have : left.length < rest.length := length_lt_of_stringBody? h
        (pieces? left).map (.scalar (.string ((textOf? units).map String.ofList)) :: ·)
    else if isNumeralChar c then
      let literal := c :: rest.takeWhile isNumeralChar
      have : (rest.dropWhile isNumeralChar).length ≤ rest.length :=
        (List.dropWhile_suffix _).length_le
      if (Numeral.ofChars? literal).isNone then none
      else (pieces? (rest.dropWhile isNumeralChar)).map
        (.scalar (.number (String.ofList literal)) :: ·)
    else
      match c, rest with
      | 'n', 'u' :: 'l' :: 'l' :: left => (pieces? left).map (.scalar .null :: ·)
      | 't', 'r' :: 'u' :: 'e' :: left => (pieces? left).map (.scalar (.bool true) :: ·)
      | 'f', 'a' :: 'l' :: 's' :: 'e' :: left => (pieces? left).map (.scalar (.bool false) :: ·)
      | _, _ => none
termination_by cs.length
decreasing_by
  all_goals simp only [List.length_cons]
  all_goals omega

/-- A container that is still open, with its contents so far, the last one first. -/
inductive Open
  | array (items : List Json)
  | object (members : List (Option String × Json)) (name : Option String)

/-- What may stand next. -/
inductive Next
  | value
  | itemOrClose
  | nameOrClose (members : List (Option String × Json))
  | name (members : List (Option String × Json))
  | colon (members : List (Option String × Json)) (name : Option String)
  /-- After a value in a container. -/
  | more
  /-- The document is complete. -/
  | done (document : Json)

/-- Puts a finished value into the innermost open container. -/
def finish (value : Json) : List Open → Next × List Open
  | [] => (.done value, [])
  | .array items :: outer => (.more, .array (value :: items) :: outer)
  | .object members name :: outer => (.more, .object ((name, value) :: members) name :: outer)

/-- A value may stand here: it is finished at once or opens a container. -/
def begin (stack : List Open) : Piece → Option (Next × List Open)
  | .scalar value => some (finish value stack)
  | .openArray => some (.itemOrClose, .array [] :: stack)
  | .openObject => some (.nameOrClose [], stack)
  | _ => none

/-- Takes one piece. -/
def step : Next × List Open → Piece → Option (Next × List Open)
  | (.value, stack), piece => begin stack piece
  | (.itemOrClose, stack), .closeArray =>
    match stack with
    | .array items :: outer => some (finish (.array items.reverse) outer)
    | _ => none
  | (.itemOrClose, stack), piece => begin stack piece
  | (.nameOrClose members, stack), .closeObject => some (finish (.object members.reverse) stack)
  | (.nameOrClose members, stack), .scalar (.string name) => some (.colon members name, stack)
  | (.name members, stack), .scalar (.string name) => some (.colon members name, stack)
  | (.colon members name, stack), .colon => some (.value, .object members name :: stack)
  | (.more, .array items :: outer), .closeArray => some (finish (.array items.reverse) outer)
  | (.more, .array items :: outer), .comma => some (.value, .array items :: outer)
  | (.more, .object members _ :: outer), .closeObject =>
    some (finish (.object members.reverse) outer)
  | (.more, .object members _ :: outer), .comma => some (.name members, outer)
  | _, _ => none

/-- The document that a text holds, with nothing but blanks around it. -/
def read? (source : String) : Option Json := do
  let pieces ← pieces? source.toList
  match ← pieces.foldlM step (.value, []) with
  | (.done document, _) => some document
  | _ => none

end Colloquy.Json
