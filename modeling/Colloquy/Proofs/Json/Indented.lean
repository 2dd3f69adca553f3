import Colloquy.Proofs.Json.Reading

/-!
# An indented document reads back

The blanks that indenting puts between the pieces of a document end a numeral like a mark does and
are skipped otherwise, so an indented document is cut into the same pieces as a compact one
(`cuts_indentedChars`). Main statement: `read?_indented`.
-/

namespace Colloquy.Json

/-! ## Blanks -/

/-- Characters that may stand between pieces. -/
def AllSpaces (cs : List Char) : Prop := ∀ c ∈ cs, isSpace c = true

theorem allSpaces_newline (depth : Nat) : AllSpaces (newline depth) := by
  intro c hc
  rcases List.mem_cons.mp hc with rfl | hc
  · rfl
  · rw [List.eq_of_mem_replicate hc]
    rfl

theorem allSpaces_lineEnd : AllSpaces ['\n'] := List.forall_mem_singleton.mpr rfl

theorem allSpaces_space : AllSpaces [' '] := List.forall_mem_singleton.mpr rfl

theorem not_numeralChar_of_isSpace {c : Char} (h : isSpace c = true) : isNumeralChar c = false := by
  simp only [isSpace, Bool.or_eq_true, decide_eq_true_eq] at h
  rcases h with ((rfl | rfl) | rfl) | rfl <;> rfl

theorem pieces?_spaces {spaces : List Char} (h : AllSpaces spaces) (rest : List Char) :
    pieces? (spaces ++ rest) = pieces? rest := by
  induction spaces with
  | nil => rfl
  | cons c spaces ih =>
    obtain ⟨hc, hspaces⟩ := List.forall_mem_cons.mp h
    rw [List.cons_append, pieces?.eq_def]
    dsimp only
    rw [if_pos hc, ih hspaces]

section Spaces

variable {cs spaces : List Char} {ps : List Piece} (h : Cuts cs ps) (hspaces : AllSpaces spaces)

include h hspaces

theorem Cuts.spaces_append : Cuts (spaces ++ cs) ps := by
  intro rest hrest
  rw [List.append_assoc, pieces?_spaces hspaces, h rest hrest]

theorem Cuts.append_spaces : Cuts (cs ++ spaces) ps := by
  intro rest hrest
  have hend : EndsStretch isNumeralChar (spaces ++ rest) := by
    cases spaces with
    | nil => exact hrest
    | cons c spaces =>
      exact endsStretch_cons.mpr (not_numeralChar_of_isSpace (hspaces c (List.mem_cons_self ..)))
  rw [List.append_assoc, h _ hend, pieces?_spaces hspaces]

end Spaces

/-! ## Documents -/

mutual

theorem cuts_indentedChars (depth : Nat) : ∀ (document : Json),
    (∀ piece ∈ document.pieces, piece.Plain) → Cuts (document.indentedChars depth) document.pieces
  | null, _ => fun rest _ => pieces?_null rest
  | bool true, _ => fun rest _ => pieces?_bool true rest
  | bool false, _ => fun rest _ => pieces?_bool false rest
  | number literal, h => fun _ hrest =>
    pieces?_numeral (h (.scalar (.number literal)) (List.mem_singleton_self _)) hrest
  | string value, h => cuts_string (h (.scalar (.string value)) (List.mem_singleton_self _))
  | array [], _ => (cuts_nil.mark_cons .openArray).append_mark .closeArray cuts_nil
  | array (item :: rest), h =>
    have hitems := cuts_indentedItems (depth + 1) (item :: rest) fun piece hmem =>
      h piece (List.mem_append_left _ (List.mem_cons_of_mem _ hmem))
    ((hitems.append_spaces (allSpaces_newline depth)).mark_cons .openArray).append_mark .closeArray
      cuts_nil
  | object [], _ => (cuts_nil.mark_cons .openObject).append_mark .closeObject cuts_nil
  | object (member :: rest), h =>
    have hmembers := cuts_indentedMembers (depth + 1) (member :: rest) fun piece hmem =>
      h piece (List.mem_append_left _ (List.mem_cons_of_mem _ hmem))
    ((hmembers.append_spaces (allSpaces_newline depth)).mark_cons .openObject).append_mark
      .closeObject cuts_nil

theorem cuts_indentedItems (depth : Nat) : ∀ (items : List Json),
    (∀ piece ∈ itemsPieces items, piece.Plain) → Cuts (indentedItems depth items) (itemsPieces items)
  | [], _ => cuts_nil
  | [item], h => (cuts_indentedChars depth item h).spaces_append (allSpaces_newline depth)
  | item :: next :: rest, h =>
    have hitem := cuts_indentedChars depth item fun piece hmem => h piece (List.mem_append_left _ hmem)
    have hrest := cuts_indentedItems depth (next :: rest) fun piece hmem =>
      h piece (List.mem_append_right _ (List.mem_cons_of_mem _ hmem))
    (hitem.spaces_append (allSpaces_newline depth)).append_mark .comma hrest

theorem cuts_indentedMembers (depth : Nat) : ∀ (members : List (Option String × Json)),
    (∀ piece ∈ membersPieces members, piece.Plain) →
      Cuts (indentedMembers depth members) (membersPieces members)
  | [], _ => cuts_nil
  | [(name, value)], h =>
    have hname := cuts_string (h (.scalar (.string name)) (List.mem_cons_self ..))
    have hvalue := cuts_indentedChars depth value fun piece hmem =>
      h piece (List.mem_cons_of_mem _ (List.mem_cons_of_mem _ hmem))
    (hname.spaces_append (allSpaces_newline depth)).append_mark .colon
      (hvalue.spaces_append allSpaces_space)
  | (name, value) :: next :: rest, h =>
    have hmember : ∀ piece ∈ [Piece.scalar (.string name)] ++ .colon :: pieces value, piece.Plain :=
      fun piece hmem => h piece (List.mem_append_left _ hmem)
    have hname := cuts_string (hmember (.scalar (.string name)) (List.mem_cons_self ..))
    have hvalue := cuts_indentedChars depth value fun piece hmem =>
      hmember piece (List.mem_cons_of_mem _ (List.mem_cons_of_mem _ hmem))
    have hrest := cuts_indentedMembers depth (next :: rest) fun piece hmem =>
      h piece (List.mem_append_right _ (List.mem_cons_of_mem _ hmem))
    ((hname.spaces_append (allSpaces_newline depth)).append_mark .colon
      (hvalue.spaces_append allSpaces_space)).append_mark .comma hrest

end

/-- **An indented document reads back.** -/
theorem read?_indented {document : Json} (h : document.Plain) :
    read? document.indented = some document :=
  read?_of_cuts (cuts_indentedChars 0 document h)

/-- So does one that was printed as a line. -/
theorem read?_printed {document : Json} (h : document.Plain) :
    read? (document.indented ++ "\n") = some document := by
  have hprinted : document.indented ++ "\n" = String.ofList (document.indentedChars 0 ++ ['\n']) := by
    rw [String.ofList_append]
    rfl
  rw [hprinted]
  exact read?_of_cuts ((cuts_indentedChars 0 document h).append_spaces allSpaces_lineEnd)

end Colloquy.Json
