import Colloquy.Proofs.Json.Pieces

/-!
# A compact document reads back

Main statement, `read?_compact`: the compact text of a plain document is read as the document. What
is cut into the document's pieces is put together again by taking these one by one, whatever
containers are open around it (`foldlM_pieces`).
-/

namespace Colloquy.Json

/-! ## Putting together -/

/-- A first item is taken as any item: no document closes the array. -/
theorem foldlM_itemOrClose (item : Json) (rest : List Json) (stack : List Open) :
    (itemsPieces (item :: rest)).foldlM step (.itemOrClose, stack)
      = (itemsPieces (item :: rest)).foldlM step (.value, stack) := by
  cases rest <;> cases item <;> rfl

/-- A first member is taken as any member. -/
theorem foldlM_nameOrClose (member : Option String × Json) (rest : List (Option String × Json))
    (stack : List Open) :
    (membersPieces (member :: rest)).foldlM step (.nameOrClose [], stack)
      = (membersPieces (member :: rest)).foldlM step (.name [], stack) := by
  cases rest <;> rfl

mutual

/-- The pieces of a document, where a value may stand, finish the document. -/
theorem foldlM_pieces : ∀ (document : Json) (stack : List Open),
    document.pieces.foldlM step (.value, stack) = some (finish document stack)
  | null, _ => rfl
  | bool true, _ => rfl
  | bool false, _ => rfl
  | number _, _ => rfl
  | string _, _ => rfl
  | array [], _ => rfl
  | array (item :: rest), stack => by
    have hitems := foldlM_itemsPieces (item :: rest) [] stack (List.cons_ne_nil _ _)
    show (itemsPieces (item :: rest) ++ [Piece.closeArray]).foldlM step (.itemOrClose, .array [] :: stack)
      = _
    rw [List.foldlM_append, foldlM_itemOrClose, hitems]
    show some (finish (.array ((item :: rest).reverse ++ []).reverse) stack) = _
    simp
  | object [], _ => rfl
  | object (member :: rest), stack => by
    obtain ⟨last, hmembers⟩ := foldlM_membersPieces (member :: rest) [] stack (List.cons_ne_nil _ _)
    show (membersPieces (member :: rest) ++ [Piece.closeObject]).foldlM step (.nameOrClose [], stack) = _
    rw [List.foldlM_append, foldlM_nameOrClose, hmembers]
    show some (finish (.object ((member :: rest).reverse ++ []).reverse) stack) = _
    simp

/-- The pieces of items inside an array put these behind the items before. -/
theorem foldlM_itemsPieces : ∀ (items before : List Json) (outer : List Open), items ≠ [] →
    (itemsPieces items).foldlM step (.value, .array before :: outer)
      = some (.more, .array (items.reverse ++ before) :: outer)
  | [], _, _, h => absurd rfl h
  | [item], before, outer, _ => foldlM_pieces item (.array before :: outer)
  | item :: next :: rest, before, outer, _ => by
    have hitem := foldlM_pieces item (.array before :: outer)
    have hrest := foldlM_itemsPieces (next :: rest) (item :: before) outer (List.cons_ne_nil _ _)
    show (item.pieces ++ .comma :: itemsPieces (next :: rest)).foldlM step _ = _
    rw [List.foldlM_append, hitem]
    show (itemsPieces (next :: rest)).foldlM step (.value, .array (item :: before) :: outer) = _
    rw [hrest]
    simp

/-- The pieces of members inside an object put these behind the members before. -/
theorem foldlM_membersPieces : ∀ (members before : List (Option String × Json)) (outer : List Open),
    members ≠ [] → ∃ last, (membersPieces members).foldlM step (.name before, outer)
      = some (.more, .object (members.reverse ++ before) last :: outer)
  | [], _, _, h => absurd rfl h
  | [(name, value)], before, outer, _ => ⟨name, foldlM_pieces value (.object before name :: outer)⟩
  | (name, value) :: next :: rest, before, outer, _ => by
    have hvalue := foldlM_pieces value (.object before name :: outer)
    obtain ⟨last, hrest⟩ :=
      foldlM_membersPieces (next :: rest) ((name, value) :: before) outer (List.cons_ne_nil _ _)
    refine ⟨last, ?_⟩
    show (([Piece.scalar (.string name)] ++ .colon :: value.pieces)
      ++ .comma :: membersPieces (next :: rest)).foldlM step _ = _
    rw [List.foldlM_append]
    show (value.pieces.foldlM step (.value, .object before name :: outer) >>= _) = _
    rw [hvalue]
    show (membersPieces (next :: rest)).foldlM step (.name ((name, value) :: before), outer) = _
    rw [hrest]
    simp

end

theorem plain_membersPieces : ∀ {members : List (Option String × Json)},
    (∀ member ∈ members, member.1.isSome = true ∧ member.2.Plain) →
      ∀ piece ∈ membersPieces members, piece.Plain
  | [], _ => by simp [membersPieces]
  | (name, value) :: rest, h => by
    obtain ⟨⟨hname, hvalue⟩, hrest⟩ := List.forall_mem_cons.mp h
    have hmember : ∀ piece ∈ [Piece.scalar (.string name)] ++ .colon :: pieces value, piece.Plain := by
      rw [List.singleton_append]
      exact List.forall_mem_cons.mpr ⟨hname, List.forall_mem_cons.mpr ⟨trivial, hvalue⟩⟩
    have hmore := plain_membersPieces hrest
    cases rest with
    | nil => exact hmember
    | cons next rest =>
      refine List.forall_mem_append.mpr ⟨hmember, List.forall_mem_cons.mpr ⟨trivial, hmore⟩⟩

/-- An object with named members is plain when its values are. -/
theorem plain_members {list : List (String × Json)} (h : ∀ member ∈ list, member.2.Plain) :
    (members list).Plain := by
  intro piece hmem
  rcases List.mem_append.mp hmem with hmem | hmem
  · rcases List.mem_cons.mp hmem with rfl | hmem
    · trivial
    · refine plain_membersPieces (fun member hmember => ?_) piece hmem
      obtain ⟨named, hnamed, rfl⟩ := List.mem_map.mp hmember
      exact ⟨rfl, h named hnamed⟩
  · cases List.mem_singleton.mp hmem
    trivial

theorem plain_itemsPieces : ∀ {items : List Json}, (∀ item ∈ items, item.Plain) →
    ∀ piece ∈ itemsPieces items, piece.Plain
  | [], _ => by simp [itemsPieces]
  | [item], h => (List.forall_mem_cons.mp h).1
  | item :: next :: rest, h => by
    obtain ⟨hitem, hrest⟩ := List.forall_mem_cons.mp h
    have hmore := plain_itemsPieces hrest
    exact List.forall_mem_append.mpr ⟨hitem, List.forall_mem_cons.mpr ⟨trivial, hmore⟩⟩

/-- An array is plain when its items are. -/
theorem plain_array {items : List Json} (h : ∀ item ∈ items, item.Plain) : (array items).Plain := by
  have hitems := plain_itemsPieces h
  refine List.forall_mem_append.mpr ⟨List.forall_mem_cons.mpr ⟨trivial, hitems⟩, ?_⟩
  exact List.forall_mem_singleton.mpr trivial

theorem plain_scalar {value : Json} (hpieces : value.pieces = [.scalar value])
    (h : (Piece.scalar value).Plain) : value.Plain := by
  intro piece hmem
  rw [hpieces] at hmem
  cases List.mem_singleton.mp hmem
  exact h

theorem plain_null : null.Plain := plain_scalar rfl trivial

theorem plain_text (value : String) : (text value).Plain := plain_scalar rfl rfl

/-- What is null or plain is plain. -/
theorem plain_optional {α : Type} {encode : α → Json} {value : Option α}
    (h : ∀ v, value = some v → (encode v).Plain) : (optional encode value).Plain := by
  cases value with
  | none => exact plain_null
  | some v => exact h v rfl

theorem plain_number {literal : String} (h : IsNumeral literal.toList) : (number literal).Plain :=
  plain_scalar rfl h

/-- A text that is cut into the pieces of a document is read as the document. -/
theorem read?_of_cuts {cs : List Char} {document : Json} (h : Cuts cs document.pieces) :
    read? (String.ofList cs) = some document := by
  have hpieces := h [] endsStretch_nil
  have hdone := foldlM_pieces document []
  rw [List.append_nil] at hpieces
  unfold read?
  rw [String.toList_ofList, hpieces, pieces?, Option.map_some, List.append_nil]
  rw [Option.bind_eq_bind, Option.bind_some, hdone]
  rfl

/-- **A compact document reads back.** -/
theorem read?_compact {document : Json} (h : document.Plain) :
    read? document.compact = some document :=
  read?_of_cuts (cuts_chars document h)

end Colloquy.Json
