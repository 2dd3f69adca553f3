import Colloquy.Proofs.Json.Pieces

/-!
# A compact document is one line

No compact document has a line end in it: a string is written with its control characters escaped,
number literals are numerals, and all else is marks and words. Main statement, `newline_not_mem_compact`.
-/

namespace Colloquy.Json

/-- No character of a text is a line end. -/
def OneLine (cs : List Char) : Prop := '\n' ∉ cs

instance (cs : List Char) : Decidable (OneLine cs) := inferInstanceAs (Decidable ('\n' ∉ cs))

theorem OneLine.nil : OneLine [] := List.not_mem_nil

theorem OneLine.append {cs ds : List Char} (h : OneLine cs) (h' : OneLine ds) : OneLine (cs ++ ds) :=
  List.not_mem_append h h'

theorem OneLine.cons {c : Char} {cs : List Char} (hc : c ≠ '\n') (h : OneLine cs) : OneLine (c :: cs) :=
  List.not_mem_cons_of_ne_of_not_mem hc.symm h

theorem hexDigit_ne_newline : ∀ {d : Nat}, d < 16 → hexDigit d ≠ '\n' := by
  decide

theorem oneLine_escape (c : Char) : OneLine (escape c) := by
  rcases escape_cases c with ⟨letter, hescape, hescaped⟩ | ⟨hcontrol, hescape⟩ |
    ⟨hescape, -, -, hprinted⟩
  · rw [hescape]
    have hletter : letter ≠ '\n' := by
      rintro rfl
      cases hescaped
    exact .cons (by decide) (.cons hletter .nil)
  · rw [hescape]
    have hhigh := hexDigit_ne_newline (show c.toNat / 16 < 16 by omega)
    have hlow := hexDigit_ne_newline (show c.toNat % 16 < 16 by omega)
    exact .append (by decide : OneLine ['\\', 'u', '0', '0'])
      (.cons hhigh (.cons hlow .nil))
  · rw [hescape]
    refine .cons ?_ .nil
    rintro rfl
    exact hprinted (by decide)

theorem oneLine_quote (cs : List Char) : OneLine (quote cs) := by
  refine .append (.cons (by decide) fun hmem => ?_) (.cons (by decide) .nil)
  obtain ⟨c, -, hc⟩ := List.mem_flatMap.mp hmem
  exact oneLine_escape c hc

theorem oneLine_stringChars : ∀ name : Option String, OneLine (stringChars name)
  | some value => oneLine_quote value.toList
  | none => by decide

theorem oneLine_numeral {literal : List Char} (h : IsNumeral literal) : OneLine literal := by
  intro hmem
  have hnumeral := h.1 _ hmem
  cases hnumeral

mutual

theorem oneLine_chars : ∀ (document : Json), (∀ piece ∈ document.pieces, piece.Plain) →
    OneLine document.chars
  | null, _ => by decide
  | bool true, _ => by decide
  | bool false, _ => by decide
  | number literal, h =>
    oneLine_numeral (h (.scalar (.number literal)) (List.mem_singleton_self _))
  | string value, _ => oneLine_stringChars value
  | array items, h =>
    have hitems := oneLine_itemsChars items fun piece hmem =>
      h piece (List.mem_append_left _ (List.mem_cons_of_mem _ hmem))
    (OneLine.cons (by decide) hitems).append (.cons (by decide) .nil)
  | object members, h =>
    have hmembers := oneLine_membersChars members fun piece hmem =>
      h piece (List.mem_append_left _ (List.mem_cons_of_mem _ hmem))
    (OneLine.cons (by decide) hmembers).append (.cons (by decide) .nil)

theorem oneLine_itemsChars : ∀ (items : List Json), (∀ piece ∈ itemsPieces items, piece.Plain) →
    OneLine (itemsChars items)
  | [], _ => .nil
  | [item], h => oneLine_chars item h
  | item :: next :: rest, h =>
    have hitem := oneLine_chars item fun piece hmem => h piece (List.mem_append_left _ hmem)
    have hrest := oneLine_itemsChars (next :: rest) fun piece hmem =>
      h piece (List.mem_append_right _ (List.mem_cons_of_mem _ hmem))
    hitem.append (.cons (by decide) hrest)

theorem oneLine_membersChars : ∀ (members : List (Option String × Json)),
    (∀ piece ∈ membersPieces members, piece.Plain) → OneLine (membersChars members)
  | [], _ => .nil
  | [(name, value)], h =>
    have hvalue := oneLine_chars value fun piece hmem =>
      h piece (List.mem_cons_of_mem _ (List.mem_cons_of_mem _ hmem))
    (oneLine_stringChars name).append (.cons (by decide) hvalue)
  | (name, value) :: next :: rest, h =>
    have hmember : ∀ piece ∈ [Piece.scalar (.string name)] ++ .colon :: pieces value, piece.Plain :=
      fun piece hmem => h piece (List.mem_append_left _ hmem)
    have hvalue := oneLine_chars value fun piece hmem =>
      hmember piece (List.mem_cons_of_mem _ (List.mem_cons_of_mem _ hmem))
    have hrest := oneLine_membersChars (next :: rest) fun piece hmem =>
      h piece (List.mem_append_right _ (List.mem_cons_of_mem _ hmem))
    ((oneLine_stringChars name).append (.cons (by decide) hvalue)).append (.cons (by decide) hrest)

end

/-- **A compact document is one line.** -/
theorem newline_not_mem_compact {document : Json} (h : document.Plain) :
    '\n' ∉ document.compact.toList := by
  unfold compact
  rw [String.toList_ofList]
  exact oneLine_chars document h

end Colloquy.Json
