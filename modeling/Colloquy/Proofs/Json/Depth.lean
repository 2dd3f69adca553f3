import Colloquy.Proofs.Json.Record

/-!
# How deep documents are

Every reader is given the number of containers that may still be opened, and passes on one less
inside each. `height` is how many containers of a document stand inside each other; a container has
room where each of its parts has room in one container less (`height_array_le`,
`height_members_le`).

The second part goes the other way, from what was read to the parts it was read from: a record that
was taken apart has opened one container (`Record.depth_of_ofJson?`), and each of its fields, like
each item of a list and each value of a map, was read from some document inside it.
-/

namespace Colloquy.Json

/-! ## Heights -/

mutual

/-- How many containers stand inside each other. -/
def height : Json → Nat
  | array items => itemsHeight items + 1
  | object members => membersHeight members + 1
  | _ => 0

/-- The greatest height of some items. -/
def itemsHeight : List Json → Nat
  | [] => 0
  | item :: rest => max (height item) (itemsHeight rest)

/-- The greatest height of the values of some members. -/
def membersHeight : List (Option String × Json) → Nat
  | [] => 0
  | (_, value) :: rest => max (height value) (membersHeight rest)

end

theorem itemsHeight_le {n : Nat} : ∀ {items : List Json},
    itemsHeight items ≤ n ↔ ∀ item ∈ items, item.height ≤ n
  | [] => by simp [itemsHeight]
  | item :: rest => by rw [itemsHeight, Nat.max_le, itemsHeight_le, List.forall_mem_cons]

theorem membersHeight_le {n : Nat} : ∀ {members : List (Option String × Json)},
    membersHeight members ≤ n ↔ ∀ member ∈ members, member.2.height ≤ n
  | [] => by simp [membersHeight]
  | (name, value) :: rest => by
    rw [membersHeight, Nat.max_le, membersHeight_le, List.forall_mem_cons]

/-- An array opens one container more than its items. -/
theorem height_array_le {items : List Json} {depth : Nat} : (array items).height ≤ depth ↔
    ∃ inside, depth = inside + 1 ∧ ∀ item ∈ items, item.height ≤ inside := by
  rw [height]
  constructor
  · intro h
    exact ⟨depth - 1, by omega, itemsHeight_le.mp (by omega)⟩
  · intro h
    obtain ⟨inside, rfl, hitems⟩ := h
    exact Nat.succ_le_succ (itemsHeight_le.mpr hitems)

/-- An object opens one container more than its members. -/
theorem height_members_le {list : List (String × Json)} {depth : Nat} : (members list).height ≤ depth ↔
    ∃ inside, depth = inside + 1 ∧ ∀ member ∈ list, member.2.height ≤ inside := by
  rw [members, height]
  constructor
  · intro h
    have hvalues := membersHeight_le.mp (Nat.le_sub_of_add_le h)
    exact ⟨depth - 1, by omega, fun member hmember => hvalues _ (List.mem_map_of_mem hmember)⟩
  · intro h
    obtain ⟨inside, rfl, hvalues⟩ := h
    apply Nat.succ_le_succ
    rw [membersHeight_le]
    intro member hmember
    obtain ⟨named, hnamed, rfl⟩ := List.mem_map.mp hmember
    exact hvalues named hnamed

theorem height_text (value : String) : (text value).height = 0 := rfl

theorem height_ofFloat (x : Float) : (ofFloat x).height = 0 := by
  unfold ofFloat
  split <;> rfl

/-! ## Parts that were read -/

section Containers

variable {α : Type} {read : Nat → Json → Option α} {depth : Nat} {document : Json}

theorem exists_of_toList? {values : List α} (h : toList? read depth document = some values) :
    ∃ inside, depth = inside + 1 ∧ ∀ value ∈ values, ∃ item, read inside item = some value := by
  cases depth with
  | zero => cases h
  | succ inside =>
    cases document with
    | array items =>
      refine ⟨inside, rfl, ?_⟩
      intro value hvalue
      obtain ⟨item, -, hitem⟩ := exists_of_mapM h hvalue
      exact ⟨item, hitem⟩
    | _ => cases h

theorem exists_of_toMap? {m : NameMap α} (h : toMap? read depth document = some m) :
    ∃ inside, depth = inside + 1 ∧ ∀ e ∈ m.entries, ∃ value, read inside value = some e.2 := by
  cases depth with
  | zero => cases h
  | succ inside =>
    cases document with
    | object members =>
      refine ⟨inside, rfl, ?_⟩
      obtain ⟨entries, hentries, h⟩ := Option.bind_eq_some_iff.mp h
      cases h
      intro e he
      obtain ⟨member, -, hmember⟩ := exists_of_mapM hentries (NameMap.mem_of_mem_ofList he)
      obtain ⟨named, -, hnamed⟩ := Option.bind_eq_some_iff.mp hmember
      obtain ⟨value, hvalue, hpair⟩ := Option.map_eq_some_iff.mp hnamed
      rw [← hpair]
      exact ⟨named.2, hvalue⟩
    | _ => cases h

end Containers

section Fields

variable {α : Type} {r : Record} {name : String}

/-- A value that was read where null may stand is nothing or was read as itself. -/
theorem eq_none_or_of_toOption? {read : Json → Option α} {document : Json} {value : Option α}
    (h : toOption? read document = some value) :
    value = none ∨ ∃ v, value = some v ∧ read document = some v := by
  cases document with
  | null => exact Or.inl (Option.some.inj h).symm
  | _ =>
    obtain ⟨v, hv, rfl⟩ := Option.map_eq_some_iff.mp h
    exact Or.inr ⟨v, rfl, hv⟩

/-- Taking a record apart opens one container. -/
theorem Record.depth_of_ofJson? {names : List String} {depth inside : Nat} {document : Json}
    (h : Record.ofJson? names depth document = some (r, inside)) : depth = inside + 1 := by
  cases depth with
  | zero => cases h
  | succ depth =>
    cases document with
    | object list =>
      obtain ⟨members, -, h⟩ := Option.bind_eq_some_iff.mp h
      obtain ⟨fields, -, h⟩ := Option.bind_eq_some_iff.mp h
      cases h
      rfl
    | array items =>
      obtain ⟨fields, -, h⟩ := Option.bind_eq_some_iff.mp h
      cases h
      rfl
    | _ => cases h

/-- What was made of a record was made of one with a container less to open. -/
theorem Record.exists_of_ofJson? {β : Type} {names : List String} {depth : Nat} {document : Json}
    {build : Record × Nat → Option β} {value : β}
    (h : (Record.ofJson? names depth document).bind build = some value) :
    ∃ r inside, depth = inside + 1 ∧ build (r, inside) = some value := by
  obtain ⟨⟨r, inside⟩, hr, hbuild⟩ := Option.bind_eq_some_iff.mp h
  exact ⟨r, inside, depth_of_ofJson? hr, hbuild⟩

/-- So does taking apart a variant whose fields stand beside its kind. -/
theorem depth_of_taggedRecord? {names : String → Option (List String)} {depth inside : Nat} {kind : String}
    {document : Json} (h : taggedRecord? names depth document = some (kind, r, inside)) :
    depth = inside + 1 := by
  unfold taggedRecord? at h
  split at h
  · obtain ⟨members, -, h⟩ := Option.bind_eq_some_iff.mp h
    split at h
    · dsimp only at h
      split at h
      · obtain ⟨known, -, h⟩ := Option.bind_eq_some_iff.mp h
        obtain ⟨fields, -, h⟩ := Option.bind_eq_some_iff.mp h
        cases h
        rfl
      · cases h
    · cases h
  · split at h
    · obtain ⟨known, -, h⟩ := Option.bind_eq_some_iff.mp h
      obtain ⟨fields, -, h⟩ := Option.bind_eq_some_iff.mp h
      cases h
      rfl
    · cases h
  · cases h

theorem Record.exists_of_required {read : Json → Option α} {v : α}
    (h : r.required name read = some v) : ∃ document, read document = some v := by
  obtain ⟨document, -, hread⟩ := Option.bind_eq_some_iff.mp h
  exact ⟨document, hread⟩

theorem Record.eq_none_or_of_optional {read : Json → Option α} {value : Option α}
    (h : r.optional name read = some value) :
    value = none ∨ ∃ v document, value = some v ∧ read document = some v := by
  unfold Record.optional at h
  split at h
  · rcases eq_none_or_of_toOption? h with hnone | ⟨v, hvalue, hread⟩
    · exact Or.inl hnone
    · exact Or.inr ⟨v, _, hvalue, hread⟩
  · split at h
    · exact Or.inl (Option.some.inj h).symm
    · cases h

theorem Record.eq_default_or_of_withDefault {read : Json → Option α} {default v : α}
    (h : r.withDefault name default read = some v) : v = default ∨ ∃ document, read document = some v := by
  unfold Record.withDefault at h
  split at h
  · exact Or.inr ⟨_, h⟩
  · exact Or.inl (Option.some.inj h).symm

end Fields

end Colloquy.Json
