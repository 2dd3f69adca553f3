/-!
# Finite maps with names as keys

`NameMap α` assigns values to finitely many names. The entries stand in increasing order of their
names (by code point, which is also the order of the UTF-8 bytes), and the type carries the proof,
so two maps with the same bindings are equal and every listing comes out in the one order that
reports, save files and diagnostics use.

The laws say what each operation does to `find?`: `find?_insert`, `find?_empty`, and `ext_find?`
(maps that agree on every name are the same map).
-/

namespace Colloquy

/-- Entries in strictly increasing order of their names. -/
def Ascending {α : Type u} (entries : List (String × α)) : Prop :=
  entries.Pairwise fun a b => a.1 < b.1

/-- A finite map from names, listed in the order of the names. -/
structure NameMap (α : Type u) where
  entries : List (String × α)
  ascending : Ascending entries

namespace NameMap

variable {α : Type u} {β : Type v}

/-- Puts a binding in its place, over an older one of the same name. -/
def insertEntry (name : String) (value : α) : List (String × α) → List (String × α)
  | [] => [(name, value)]
  | (other, old) :: rest =>
    if name = other then (name, value) :: rest
    else if name < other then (name, value) :: (other, old) :: rest
    else (other, old) :: insertEntry name value rest

theorem fst_mem_insertEntry {name : String} {value : α} :
    ∀ {entries : List (String × α)} {e : String × α},
      e ∈ insertEntry name value entries → e.1 = name ∨ e ∈ entries
  | [], e, h => by
    simp only [insertEntry, List.mem_singleton] at h
    exact Or.inl (by rw [h])
  | (other, old) :: rest, e, h => by
    unfold insertEntry at h
    split at h
    · rcases List.mem_cons.mp h with h | h
      · exact Or.inl (by rw [h])
      · exact Or.inr (List.mem_cons_of_mem _ h)
    · split at h
      · rcases List.mem_cons.mp h with h | h
        · exact Or.inl (by rw [h])
        · exact Or.inr h
      · rcases List.mem_cons.mp h with h | h
        · exact Or.inr (by rw [h]; exact List.mem_cons_self ..)
        · rcases fst_mem_insertEntry h with h | h
          · exact Or.inl h
          · exact Or.inr (List.mem_cons_of_mem _ h)

theorem lt_of_not_lt {a b : String} (hne : a ≠ b) (h : ¬ a < b) : b < a := by
  apply Decidable.byContradiction
  intro h'
  exact hne (String.le_antisymm (String.not_lt.mp h') (String.not_lt.mp h))

theorem ascending_insertEntry (name : String) (value : α) :
    ∀ {entries : List (String × α)}, Ascending entries → Ascending (insertEntry name value entries)
  | [], _ => by simp [insertEntry, Ascending]
  | (other, old) :: rest, h => by
    obtain ⟨hhead, htail⟩ := List.pairwise_cons.mp h
    unfold insertEntry
    split
    · rename_i heq
      subst heq
      exact List.pairwise_cons.mpr ⟨hhead, htail⟩
    · split
      · rename_i hlt
        refine List.pairwise_cons.mpr ⟨?_, h⟩
        intro e he
        rcases List.mem_cons.mp he with he | he
        · rw [he]; exact hlt
        · exact String.lt_trans hlt (hhead e he)
      · rename_i hne hnlt
        refine List.pairwise_cons.mpr ⟨?_, ascending_insertEntry name value htail⟩
        intro e he
        rcases fst_mem_insertEntry he with he | he
        · show other < e.1
          rw [he]
          exact lt_of_not_lt hne hnlt
        · exact hhead e he

/-- The map that binds nothing. -/
def empty : NameMap α := ⟨[], List.Pairwise.nil⟩

instance : Inhabited (NameMap α) := ⟨empty⟩

/-- Binds a name, over an older binding of the same name. -/
def insert (m : NameMap α) (name : String) (value : α) : NameMap α :=
  ⟨insertEntry name value m.entries, ascending_insertEntry name value m.ascending⟩

/-- The value bound to a name, if any. -/
def find? (m : NameMap α) (name : String) : Option α :=
  m.entries.lookup name

/-- Whether a name is bound. -/
def contains (m : NameMap α) (name : String) : Bool := (m.find? name).isSome

/-- The bound names, in order. -/
def names (m : NameMap α) : List String := m.entries.map (·.1)

/-- How many names are bound. -/
def size (m : NameMap α) : Nat := m.entries.length

/-- Binds the listed names from left to right: of two bindings of one name the later stays. -/
def insertAll (m : NameMap α) (entries : List (String × α)) : NameMap α :=
  entries.foldl (fun m e => m.insert e.1 e.2) m

/-- The map with the listed bindings: of two bindings of one name the later stays. -/
def ofList (entries : List (String × α)) : NameMap α := empty.insertAll entries

/-- The same names with every value replaced by its image. -/
def mapValues (f : String → α → β) (m : NameMap α) : NameMap β :=
  ⟨m.entries.map fun e => (e.1, f e.1 e.2), by
    have h := m.ascending
    unfold Ascending at h ⊢
    exact List.pairwise_map.mpr h⟩

/-- The bindings of `upper` laid over those of `m`. -/
def overlay (m upper : NameMap α) : NameMap α := m.insertAll upper.entries

/-! ## Laws -/

theorem ext_entries {m n : NameMap α} (h : m.entries = n.entries) : m = n := by
  cases m; cases n; cases h; rfl

instance [BEq α] : BEq (NameMap α) := ⟨fun m n => m.entries == n.entries⟩

instance [DecidableEq α] : DecidableEq (NameMap α) := fun m n =>
  if h : m.entries = n.entries then .isTrue (ext_entries h)
  else .isFalse fun e => h (congrArg entries e)

theorem lookup_cons_if (first name : String) (value : α) (rest : List (String × α)) :
    ((first, value) :: rest).lookup name = if name = first then some value else rest.lookup name := by
  by_cases h : name = first
  · subst h; simp
  · simp [List.lookup_cons, beq_false_of_ne h, h]

theorem lookup_insertEntry (name other : String) (value : α) :
    ∀ entries : List (String × α), (insertEntry name value entries).lookup other =
      if other = name then some value else entries.lookup other
  | [] => by simp only [insertEntry, lookup_cons_if]
  | (first, old) :: rest => by
    have ih := lookup_insertEntry name other value rest
    unfold insertEntry
    split
    · rename_i heq
      subst heq
      simp only [lookup_cons_if]
      split <;> rfl
    · split
      · simp only [lookup_cons_if]
      · rename_i hne _
        simp only [lookup_cons_if, ih]
        by_cases h : other = first
        · subst h
          simp [Ne.symm hne]
        · simp [h]

/-- Binding a name changes what that name finds and nothing else. -/
@[simp] theorem find?_insert (m : NameMap α) (name other : String) (value : α) :
    (m.insert name value).find? other = if other = name then some value else m.find? other :=
  lookup_insertEntry name other value m.entries

@[simp] theorem find?_empty (name : String) : (empty : NameMap α).find? name = none := rfl

@[simp] theorem names_mapValues (f : String → α → β) (m : NameMap α) :
    (m.mapValues f).names = m.names := by
  simp [names, mapValues]

/-- A name that is below all others of a list is not found in it. -/
theorem lookup_eq_none_of_lt {name : String} :
    ∀ {entries : List (String × α)}, (∀ e ∈ entries, name < e.1) → entries.lookup name = none
  | [], _ => rfl
  | (other, _) :: rest, h => by
    have hne : name ≠ other := by
      intro he
      have hlt := h _ (List.mem_cons_self ..)
      rw [he] at hlt
      exact String.lt_irrefl _ hlt
    rw [List.lookup_cons, beq_false_of_ne hne]
    exact lookup_eq_none_of_lt fun e he => h e (List.mem_cons_of_mem _ he)

theorem entries_eq_of_lookup_eq :
    ∀ {xs ys : List (String × α)}, Ascending xs → Ascending ys →
      (∀ name, xs.lookup name = ys.lookup name) → xs = ys
  | [], [], _, _, _ => rfl
  | [], (b, _) :: _, _, _, h => by simpa using h b
  | (a, _) :: _, [], _, _, h => by simpa using h a
  | (a, v) :: xs, (b, w) :: ys, hx, hy, h => by
    obtain ⟨hxa, hxs⟩ := List.pairwise_cons.mp hx
    obtain ⟨hyb, hys⟩ := List.pairwise_cons.mp hy
    have hab : a = b := by
      apply Decidable.byContradiction
      intro hne
      rcases Decidable.em (a < b) with hlt | hnlt
      · have h1 := h a
        rw [@lookup_eq_none_of_lt _ _ ((b, w) :: ys) (by
          intro e he
          rcases List.mem_cons.mp he with he | he
          · rw [he]; exact hlt
          · exact String.lt_trans hlt (hyb e he))] at h1
        simp at h1
      · have hlt := lt_of_not_lt hne hnlt
        have h1 := h b
        rw [@lookup_eq_none_of_lt _ _ ((a, v) :: xs) (by
          intro e he
          rcases List.mem_cons.mp he with he | he
          · rw [he]; exact hlt
          · exact String.lt_trans hlt (hxa e he))] at h1
        simp at h1
    subst hab
    have hvw : v = w := by simpa using h a
    subst hvw
    have htail : xs = ys := entries_eq_of_lookup_eq hxs hys fun name => by
      rcases Decidable.em (name = a) with he | hne
      · subst he
        rw [lookup_eq_none_of_lt hxa, lookup_eq_none_of_lt hyb]
      · simpa [List.lookup_cons, beq_false_of_ne hne] using h name
    rw [htail]

/-- Maps that find the same under every name are equal. -/
theorem ext_find? {m n : NameMap α} (h : ∀ name, m.find? name = n.find? name) : m = n :=
  ext_entries (entries_eq_of_lookup_eq m.ascending n.ascending h)

end NameMap

end Colloquy
