import Colloquy.Json.Printer
import Colloquy.Json.Reader
import Colloquy.Proofs.Text

/-!
# Cutting up what was written

A document is written as a list of pieces (`Json.pieces`), and is `Plain` when each of these can be
read again: number literals are numerals and strings are texts. Main statement, `cuts_chars`: the
compact text of a plain document is cut into its pieces, whatever follows, as long as that does not
go on with a numeral.

`Cuts` is built up mark by mark: a mark ends whatever literal stands before it.
-/

namespace Colloquy.Json

/-! ## Strings -/

theorem hexValue?_hexDigit : ∀ {d : Nat}, d < 16 → hexValue? (hexDigit d) = some d := by
  decide

theorem textOf?_code {n : Nat} (h : n < 0xD800) (units : List StringUnit) :
    textOf? (.code n :: units) = (textOf? units).map (Char.ofNat n :: ·) := by
  cases units with
  | nil => simp [textOf?]; omega
  | cons unit units =>
    cases unit with
    | char c => simp [textOf?]; omega
    | code low =>
      rw [textOf?]
      rw [if_neg (by omega), if_neg (by omega)]

/-- What is read after a unit of a string literal, with the unit in front. -/
def withUnit (unit : StringUnit) (read : Option (List StringUnit × List Char)) :
    Option (List StringUnit × List Char) :=
  read.map fun read => (unit :: read.1, read.2)

/-- An escape of one letter is read as the character that it stands for. -/
theorem stringBody?_letter {letter c : Char} (h : escaped? letter = some c) (rest : List Char) :
    stringBody? ('\\' :: letter :: rest) = withUnit (.char c) (stringBody? rest) := by
  have hcode : letter ≠ 'u' := by
    rintro rfl
    cases h
  rw [stringBody?.eq_def]
  split
  · next heq => cases heq
  · next heq => cases heq
  · next heq => exact absurd (List.cons.inj (List.cons.inj heq).2).1 hcode
  · next heq =>
    cases heq
    rw [h]
    cases stringBody? rest <;> rfl
  · next _ hno heq =>
    cases heq
    exact (hno _ _ rfl rfl).elim

/-- A control character is read as its code. -/
theorem stringBody?_code {n : Nat} (h : n < 0x20) (rest : List Char) :
    stringBody? ('\\' :: 'u' :: '0' :: '0' :: hexDigit (n / 16) :: hexDigit (n % 16) :: rest)
      = withUnit (.code n) (stringBody? rest) := by
  have hcode : ((0 * 16 + 0) * 16 + n / 16) * 16 + n % 16 = n := by omega
  rw [stringBody?, hexValue?_hexDigit (show n / 16 < 16 by omega),
    hexValue?_hexDigit (show n % 16 < 16 by omega)]
  cases stringBody? rest with
  | none => rfl
  | some read => exact congrArg (fun code => some (.code code :: read.1, read.2)) hcode

/-- A character that is written as it stands is read as it stands. -/
theorem stringBody?_self {c : Char} (hquote : c ≠ '"') (hslash : c ≠ '\\') (h : ¬ c.toNat < 0x20)
    (rest : List Char) :
    stringBody? (c :: rest) = withUnit (.char c) (stringBody? rest) := by
  rw [stringBody?.eq_def]
  split
  · next heq => cases heq
  · next heq => exact absurd (List.cons.inj heq).1 hquote
  · next heq => exact absurd (List.cons.inj heq).1 hslash
  · next heq => exact absurd (List.cons.inj heq).1 hslash
  · next heq =>
    cases heq
    rw [if_neg h]
    cases stringBody? rest <;> rfl

/-- The three ways in which a character is written. -/
theorem escape_cases (c : Char) :
    (∃ letter, escape c = ['\\', letter] ∧ escaped? letter = some c) ∨
      (c.toNat < 0x20 ∧ escape c =
        ['\\', 'u', '0', '0', hexDigit (c.toNat / 16), hexDigit (c.toNat % 16)]) ∨
      (escape c = [c] ∧ c ≠ '"' ∧ c ≠ '\\' ∧ ¬ c.toNat < 0x20) := by
  have letter {letter d : Char} (h : c = d) (hescaped : escaped? letter = some d) :
      ∃ letter', ['\\', letter] = ['\\', letter'] ∧ escaped? letter' = some c :=
    ⟨letter, rfl, by rw [h]; exact hescaped⟩
  unfold escape
  split
  · next h => exact Or.inl (letter h rfl)
  split
  · next h => exact Or.inl (letter h rfl)
  split
  · next h => exact Or.inl (letter h rfl)
  split
  · next h => exact Or.inl (letter h rfl)
  split
  · next h => exact Or.inl (letter h rfl)
  split
  · next h => exact Or.inl (letter h rfl)
  split
  · next h => exact Or.inl (letter h rfl)
  split
  · next h => exact Or.inr (Or.inl ⟨h, rfl⟩)
  · next hquote hslash _ _ _ _ _ h => exact Or.inr (Or.inr ⟨rfl, hquote, hslash, h⟩)

/-- A written character is read as one unit, which stands for the character. -/
theorem stringBody?_escape (c : Char) (rest : List Char) :
    ∃ unit, stringBody? (escape c ++ rest) = withUnit unit (stringBody? rest) ∧
      ∀ units, textOf? (unit :: units) = (textOf? units).map (c :: ·) := by
  rcases escape_cases c with ⟨letter, hescape, hescaped⟩ | ⟨hcontrol, hescape⟩ |
    ⟨hescape, hquote, hslash, hprinted⟩
  · rw [hescape]
    exact ⟨.char c, stringBody?_letter hescaped rest, fun _ => rfl⟩
  · rw [hescape]
    refine ⟨.code c.toNat, stringBody?_code hcontrol rest, fun units => ?_⟩
    rw [textOf?_code (by omega), Char.ofNat_toNat]
  · rw [hescape]
    exact ⟨.char c, stringBody?_self hquote hslash hprinted rest, fun _ => rfl⟩

/-- The inside of a written literal is read up to its closing quote, as the text. -/
theorem stringBody?_escaped (rest : List Char) : ∀ cs : List Char,
    ∃ units, stringBody? (cs.flatMap escape ++ '"' :: rest) = some (units, rest) ∧
      textOf? units = some cs
  | [] => ⟨[], rfl, rfl⟩
  | c :: cs => by
    obtain ⟨units, hbody, htext⟩ := stringBody?_escaped rest cs
    obtain ⟨unit, hread, hstands⟩ := stringBody?_escape c (cs.flatMap escape ++ '"' :: rest)
    refine ⟨unit :: units, ?_, ?_⟩
    · rw [List.flatMap_cons, List.append_assoc, hread, hbody]
      rfl
    · rw [hstands, htext]
      rfl

/-! ## Cutting up -/

/-- The marks, by their characters. -/
inductive IsMark : Char → Piece → Prop
  | openArray : IsMark '[' .openArray
  | closeArray : IsMark ']' .closeArray
  | openObject : IsMark '\x7b' .openObject
  | closeObject : IsMark '\x7d' .closeObject
  | comma : IsMark ',' .comma
  | colon : IsMark ':' .colon

/-- A literal that is a numeral. -/
def IsNumeral (literal : List Char) : Prop :=
  (∀ c ∈ literal, isNumeralChar c = true) ∧ (Numeral.ofChars? literal).isSome = true

theorem pieces?_mark {c : Char} {piece : Piece} (h : IsMark c piece) (rest : List Char) :
    pieces? (c :: rest) = (pieces? rest).map (piece :: ·) := by
  rw [pieces?.eq_def]
  cases h <;> rfl

theorem pieces?_quote (value : String) (rest : List Char) :
    pieces? (quote value.toList ++ rest)
      = (pieces? rest).map (.scalar (.text value) :: ·) := by
  obtain ⟨units, hbody, htext⟩ := stringBody?_escaped rest value.toList
  show pieces? ('"' :: (value.toList.flatMap escape ++ ['"'] ++ rest)) = _
  rw [List.append_assoc, List.singleton_append, pieces?.eq_def]
  dsimp only
  rw [if_neg (by decide), if_neg (by decide), if_neg (by decide), if_neg (by decide),
    if_neg (by decide), if_neg (by decide), if_neg (by decide), if_pos rfl]
  split
  · next hfail =>
    rw [hbody] at hfail
    cases hfail
  · next units' left hread =>
    rw [hbody] at hread
    cases hread
    rw [htext]
    simp [text]

theorem pieces?_numeral {literal : String} (h : IsNumeral literal.toList) {rest : List Char}
    (hrest : EndsStretch isNumeralChar rest) :
    pieces? (literal.toList ++ rest)
      = (pieces? rest).map (.scalar (.number literal) :: ·) := by
  obtain ⟨hchars, hnumeral⟩ := h
  cases hliteral : literal.toList with
  | nil =>
    rw [hliteral] at hnumeral
    cases hnumeral
  | cons c tail =>
    rw [hliteral] at hchars hnumeral
    have htail : ∀ d ∈ tail, isNumeralChar d = true := fun d hd => hchars d (List.mem_cons_of_mem c hd)
    have hc : isNumeralChar c = true := hchars c (List.mem_cons_self ..)
    have hnot : ∀ {d}, isNumeralChar d = false → c ≠ d := by
      rintro d hd rfl
      rw [hc] at hd
      cases hd
    have hspace : ¬ isSpace c = true := by
      simp only [isSpace, Bool.or_eq_true, decide_eq_true_eq, not_or]
      exact ⟨⟨⟨hnot rfl, hnot rfl⟩, hnot rfl⟩, hnot rfl⟩
    rw [List.cons_append, pieces?.eq_def]
    dsimp only
    rw [if_neg hspace, if_neg (hnot rfl), if_neg (hnot rfl), if_neg (hnot rfl), if_neg (hnot rfl),
      if_neg (hnot rfl), if_neg (hnot rfl), if_neg (hnot rfl), if_pos hc]
    simp only [takeWhile_stretch htail hrest, dropWhile_stretch htail hrest]
    rw [if_neg (by simp [Option.isSome_iff_ne_none.mp hnumeral]), ← hliteral, String.ofList_toList]

theorem pieces?_null (rest : List Char) :
    pieces? ("null".toList ++ rest) = (pieces? rest).map (.scalar .null :: ·) := by
  rw [pieces?.eq_def]
  rfl

theorem pieces?_bool (value : Bool) (rest : List Char) :
    pieces? (chars (.bool value) ++ rest) = (pieces? rest).map (.scalar (.bool value) :: ·) := by
  rw [pieces?.eq_def]
  cases value <;> rfl

/-! ## The pieces of a document -/

mutual

/-- The pieces that a document is written in. -/
def pieces : Json → List Piece
  | array items => .openArray :: itemsPieces items ++ [.closeArray]
  | object members => .openObject :: membersPieces members ++ [.closeObject]
  | value => [.scalar value]

/-- The pieces of items, commas between them. -/
def itemsPieces : List Json → List Piece
  | [] => []
  | [item] => pieces item
  | item :: rest => pieces item ++ .comma :: itemsPieces rest

/-- The pieces of members, commas between them. -/
def membersPieces : List (Option String × Json) → List Piece
  | [] => []
  | [(name, value)] => [.scalar (.string name)] ++ .colon :: pieces value
  | (name, value) :: rest =>
    [.scalar (.string name)] ++ .colon :: pieces value ++ .comma :: membersPieces rest

end

/-- Whether a piece can be written and read: a number literal is a numeral, a string is a text. -/
def Piece.Plain : Piece → Prop
  | .scalar (.number literal) => IsNumeral literal.toList
  | .scalar (.string value) => value.isSome = true
  | _ => True

/-- Whether all pieces of a document can be written and read. -/
def Plain (document : Json) : Prop := ∀ piece ∈ document.pieces, piece.Plain

/-- Whatever follows, as long as it does not go on with a numeral, the characters are cut into these
pieces. -/
def Cuts (cs : List Char) (ps : List Piece) : Prop :=
  ∀ rest, EndsStretch isNumeralChar rest → pieces? (cs ++ rest) = (pieces? rest).map (ps ++ ·)

theorem cuts_nil : Cuts [] [] := by
  intro rest _
  simp

theorem IsMark.not_numeralChar {c : Char} {piece : Piece} (h : IsMark c piece) :
    isNumeralChar c = false := by
  cases h <;> rfl

section Marks

variable {cs ds : List Char} {ps qs : List Piece} {c : Char} {piece : Piece}

theorem Cuts.mark_cons (hmark : IsMark c piece) (h : Cuts cs ps) : Cuts (c :: cs) (piece :: ps) := by
  intro rest hrest
  rw [List.cons_append, pieces?_mark hmark, h rest hrest, Option.map_map]
  rfl

theorem Cuts.append_mark (h : Cuts cs ps) (hmark : IsMark c piece) (h' : Cuts ds qs) :
    Cuts (cs ++ c :: ds) (ps ++ piece :: qs) := by
  intro rest hrest
  rw [List.append_assoc, List.cons_append, h _ (endsStretch_cons.mpr hmark.not_numeralChar),
    ← List.cons_append, h'.mark_cons hmark rest hrest, Option.map_map]
  congr 1
  funext more
  exact (List.append_assoc ps (piece :: qs) more).symm

end Marks

theorem cuts_string {name : Option String} (h : name.isSome = true) :
    Cuts (stringChars name) [.scalar (.string name)] := by
  obtain ⟨value, rfl⟩ := Option.isSome_iff_exists.mp h
  intro rest _
  exact pieces?_quote value rest

mutual

theorem cuts_chars : ∀ (document : Json), (∀ piece ∈ document.pieces, piece.Plain) →
    Cuts document.chars document.pieces
  | null, _ => fun rest _ => pieces?_null rest
  | bool true, _ => fun rest _ => pieces?_bool true rest
  | bool false, _ => fun rest _ => pieces?_bool false rest
  | number literal, h => fun _ hrest =>
    pieces?_numeral (h (.scalar (.number literal)) (List.mem_singleton_self _)) hrest
  | string value, h => cuts_string (h (.scalar (.string value)) (List.mem_singleton_self _))
  | array items, h =>
    have hitems := cuts_itemsChars items fun piece hmem =>
      h piece (List.mem_append_left _ (List.mem_cons_of_mem _ hmem))
    (hitems.mark_cons .openArray).append_mark .closeArray cuts_nil
  | object members, h =>
    have hmembers := cuts_membersChars members fun piece hmem =>
      h piece (List.mem_append_left _ (List.mem_cons_of_mem _ hmem))
    (hmembers.mark_cons .openObject).append_mark .closeObject cuts_nil

theorem cuts_itemsChars : ∀ (items : List Json), (∀ piece ∈ itemsPieces items, piece.Plain) →
    Cuts (itemsChars items) (itemsPieces items)
  | [], _ => cuts_nil
  | [item], h => cuts_chars item h
  | item :: next :: rest, h =>
    have hitem := cuts_chars item fun piece hmem => h piece (List.mem_append_left _ hmem)
    have hrest := cuts_itemsChars (next :: rest) fun piece hmem =>
      h piece (List.mem_append_right _ (List.mem_cons_of_mem _ hmem))
    hitem.append_mark .comma hrest

theorem cuts_membersChars : ∀ (members : List (Option String × Json)),
    (∀ piece ∈ membersPieces members, piece.Plain) →
      Cuts (membersChars members) (membersPieces members)
  | [], _ => cuts_nil
  | [(name, value)], h =>
    have hname := cuts_string (h (.scalar (.string name)) (List.mem_cons_self ..))
    have hvalue := cuts_chars value fun piece hmem =>
      h piece (List.mem_cons_of_mem _ (List.mem_cons_of_mem _ hmem))
    hname.append_mark .colon hvalue
  | (name, value) :: next :: rest, h =>
    have hmember : ∀ piece ∈ [Piece.scalar (.string name)] ++ .colon :: pieces value, piece.Plain :=
      fun piece hmem => h piece (List.mem_append_left _ hmem)
    have hname := cuts_string (hmember (.scalar (.string name)) (List.mem_cons_self ..))
    have hvalue := cuts_chars value fun piece hmem =>
      hmember piece (List.mem_cons_of_mem _ (List.mem_cons_of_mem _ hmem))
    have hrest := cuts_membersChars (next :: rest) fun piece hmem =>
      h piece (List.mem_append_right _ (List.mem_cons_of_mem _ hmem))
    (hname.append_mark .colon hvalue).append_mark .comma hrest

end

end Colloquy.Json
