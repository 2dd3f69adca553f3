import Colloquy.NameMap
import Mathlib.Data.List.Forall2
import Mathlib.Data.List.Dedup

/-!
# Maps name by name

Two maps are related by `R` (`NameMap.Related R`) when they bind the same names and the two values
of every name are related; inserting related values keeps them related (`Related.insert`,
`Related.insertAll`). Binding names anew that a map binds already leaves its listing of names as it
was (`names_insert`, `names_insertAll`).

`mapValues?` replaces the values by images that they may lack. A map stays as it is when each of its
values is its own image (`mapValues?_eq_self_iff`). This and the documents of lists rest on
`mapM_eq_some`: a list is read just when its items are read one by one.

A map changes only at some names (`ChangesOnly`) when it binds the same names afterwards and every
other name to the same value.
-/

namespace Colloquy

variable {α β : Type} {R : α → β → Prop}

/-! ## Lists that are read item by item -/

theorem mapM_eq_some {f : α → Option β} : ∀ {items : List α} {values : List β},
    items.mapM f = some values ↔ List.Forall₂ (fun item value => f item = some value) items values
  | [], values => by
    rw [List.forall₂_nil_left_iff, List.mapM_nil]
    constructor
    · intro h
      exact (Option.some.inj h).symm
    · intro h
      rw [h]
      rfl
  | item :: rest, values => by
    rw [List.forall₂_cons_left_iff, List.mapM_cons]
    constructor
    · intro h
      obtain ⟨value, hvalue, h⟩ := Option.bind_eq_some_iff.mp h
      obtain ⟨others, hothers, h⟩ := Option.bind_eq_some_iff.mp h
      exact ⟨value, others, hvalue, mapM_eq_some.mp hothers, (Option.some.inj h).symm⟩
    · intro h
      obtain ⟨value, others, hvalue, hothers, rfl⟩ := h
      rw [hvalue, mapM_eq_some.mpr hothers]
      rfl

/-- A list is read as it was written when each of its values is. -/
theorem mapM_map_eq_self_iff {encode : α → β} {decode : β → Option α} {values : List α} :
    (values.map encode).mapM decode = some values ↔
      ∀ value ∈ values, decode (encode value) = some value := by
  rw [mapM_eq_some, List.forall₂_map_left_iff, List.forall₂_same]

theorem exists_of_forall₂ {items : List α} {values : List β} (h : List.Forall₂ R items values)
    {value : β} (hvalue : value ∈ values) : ∃ item ∈ items, R item value := by
  induction h with
  | nil => cases hvalue
  | @cons item first items values hfirst _ ih =>
    rcases List.mem_cons.mp hvalue with rfl | hvalue
    · exact ⟨item, List.mem_cons_self .., hfirst⟩
    · obtain ⟨other, hother, hrelated⟩ := ih hvalue
      exact ⟨other, List.mem_cons_of_mem _ hother, hrelated⟩

/-- Each value that was read from a list was read from one of the items. -/
theorem exists_of_mapM {f : α → Option β} {items : List α} {values : List β}
    (h : items.mapM f = some values) {value : β} (hvalue : value ∈ values) :
    ∃ item ∈ items, f item = some value :=
  exists_of_forall₂ (mapM_eq_some.mp h) hvalue

namespace NameMap

@[simp] theorem insertAll_cons (m : NameMap α) (e : String × α) (rest : List (String × α)) :
    m.insertAll (e :: rest) = (m.insert e.1 e.2).insertAll rest := rfl

/-- Both maps bind the same names, to values related by `R`. -/
def Related (R : α → β → Prop) (m : NameMap α) (n : NameMap β) : Prop :=
  ∀ name, Option.Rel R (m.find? name) (n.find? name)

namespace Related

variable {m : NameMap α} {n : NameMap β}

theorem contains_eq (h : Related R m n) (name : String) : m.contains name = n.contains name := by
  have hname := h name
  unfold contains
  generalize m.find? name = a at hname
  generalize n.find? name = b at hname
  cases hname <;> rfl

theorem insert (h : Related R m n) (name : String) {a : α} {b : β} (related : R a b) :
    Related R (m.insert name a) (n.insert name b) := by
  intro other
  rw [find?_insert, find?_insert]
  by_cases hother : other = name
  · rw [if_pos hother, if_pos hother]
    exact .some related
  · rw [if_neg hother, if_neg hother]
    exact h other

/-- Related bindings laid over related maps, name by name. -/
theorem insertAll {xs : List (String × α)} {ys : List (String × β)}
    (hentries : List.Forall₂ (fun x y => x.1 = y.1 ∧ R x.2 y.2) xs ys) :
    ∀ {m : NameMap α} {n : NameMap β}, Related R m n → Related R (m.insertAll xs) (n.insertAll ys) := by
  induction hentries with
  | nil => exact id
  | @cons x y xs ys hhead _ ih =>
    intro m n h
    obtain ⟨hname, hvalue⟩ := hhead
    rw [insertAll_cons, insertAll_cons, hname]
    exact ih (h.insert y.1 hvalue)

theorem refl {R : α → α → Prop} (hR : ∀ a, R a a) (m : NameMap α) : Related R m m := by
  intro name
  cases m.find? name with
  | none => exact .none
  | some value => exact .some (hR value)

/-- Maps related by equality are equal. -/
theorem eq {m n : NameMap α} (h : Related (· = ·) m n) : m = n := by
  refine ext_find? fun name => ?_
  have hname := h name
  generalize m.find? name = a at hname ⊢
  generalize n.find? name = b at hname ⊢
  cases hname with
  | some heq => rw [heq]
  | none => rfl

end Related

/-! ## Names after an insertion -/

theorem map_fst_insertEntry {name : String} {value : α} :
    ∀ {entries : List (String × α)}, Ascending entries → name ∈ entries.map (·.1) →
      (insertEntry name value entries).map (·.1) = entries.map (·.1)
  | [], _, hmem => absurd hmem (by simp)
  | (other, old) :: rest, hasc, hmem => by
    obtain ⟨hhead, htail⟩ := List.pairwise_cons.mp hasc
    unfold insertEntry
    by_cases heq : name = other
    · rw [if_pos heq, heq]
      rfl
    · -- `name` stands further down, so it is not below `other`
      have hrest : name ∈ rest.map (·.1) := by
        rcases List.mem_cons.mp hmem with h | h
        · exact absurd h heq
        · exact h
      obtain ⟨e, he, hename⟩ := List.mem_map.mp hrest
      have hlt : other < name := by
        have := hhead e he
        rwa [hename] at this
      rw [if_neg heq, if_neg (fun h => String.lt_irrefl _ (String.lt_trans h hlt))]
      rw [List.map_cons, List.map_cons, map_fst_insertEntry htail hrest]

/-- Binding anew a name that is bound already leaves the names as they were. -/
theorem names_insert {m : NameMap α} {name : String} (hmem : name ∈ m.names) (value : α) :
    (m.insert name value).names = m.names :=
  map_fst_insertEntry m.ascending hmem

theorem names_insertAll {entries : List (String × α)} :
    ∀ {m : NameMap α}, (∀ e ∈ entries, e.1 ∈ m.names) → (m.insertAll entries).names = m.names := by
  induction entries with
  | nil => intro m _; rfl
  | cons e rest ih =>
    intro m hmem
    have hhead : (m.insert e.1 e.2).names = m.names :=
      names_insert (hmem e (List.mem_cons_self ..)) e.2
    rw [insertAll_cons, ih fun x hx => by rw [hhead]; exact hmem x (List.mem_cons_of_mem _ hx), hhead]

/-! ## Listings -/

/-- What is bound to a name above all others comes last. -/
theorem insertEntry_of_forall_lt {name : String} {value : α} : ∀ {entries : List (String × α)},
    (∀ e ∈ entries, e.1 < name) → insertEntry name value entries = entries ++ [(name, value)]
  | [], _ => rfl
  | (other, old) :: rest, h => by
    obtain ⟨hother, hrest⟩ := List.forall_mem_cons.mp h
    have hne : name ≠ other := by
      rintro rfl
      exact String.lt_irrefl _ hother
    unfold insertEntry
    rw [if_neg hne, if_neg fun hlt => String.lt_irrefl _ (String.lt_trans hother hlt),
      insertEntry_of_forall_lt hrest, List.cons_append]

theorem entries_insertAll : ∀ {more : List (String × α)} {m : NameMap α},
    Ascending (m.entries ++ more) → (m.insertAll more).entries = m.entries ++ more
  | [], m, _ => (List.append_nil _).symm
  | e :: rest, m, h => by
    have hbelow : ∀ other ∈ m.entries, other.1 < e.1 := fun other hother =>
      (List.pairwise_append.mp h).2.2 other hother e (List.mem_cons_self ..)
    have hinsert : (m.insert e.1 e.2).entries = m.entries ++ [e] := insertEntry_of_forall_lt hbelow
    rw [insertAll_cons, entries_insertAll (by rw [hinsert, List.append_assoc]; exact h), hinsert,
      List.append_assoc]
    rfl

/-- Entries in the order of their names are the listing of the map that is made from them. -/
theorem entries_ofList {entries : List (String × α)} (h : Ascending entries) :
    (ofList entries).entries = entries :=
  entries_insertAll h

theorem mem_insertEntry {name : String} {value : α} {e : String × α} : ∀ {entries : List (String × α)},
    e ∈ insertEntry name value entries → e = (name, value) ∨ e ∈ entries
  | [], h => Or.inl (List.mem_singleton.mp h)
  | (other, old) :: rest, h => by
    unfold insertEntry at h
    split at h
    · -- over an older binding
      rcases List.mem_cons.mp h with h | h
      · exact Or.inl h
      · exact Or.inr (List.mem_cons_of_mem _ h)
    · split at h
      · exact List.mem_cons.mp h
      · rcases List.mem_cons.mp h with h | h
        · rw [h]
          exact Or.inr (List.mem_cons_self ..)
        · exact (mem_insertEntry h).imp_right (List.mem_cons_of_mem _)

theorem mem_insertAll {e : String × α} : ∀ {more : List (String × α)} {m : NameMap α},
    e ∈ (m.insertAll more).entries → e ∈ more ∨ e ∈ m.entries
  | [], m, h => Or.inr h
  | first :: rest, m, h => by
    rcases mem_insertAll (m := m.insert first.1 first.2) h with h | h
    · exact Or.inl (List.mem_cons_of_mem _ h)
    · rcases mem_insertEntry h with rfl | h
      · exact Or.inl (List.mem_cons_self ..)
      · exact Or.inr h

/-- A map made from a list binds nothing that is not on the list. -/
theorem mem_of_mem_ofList {entries : List (String × α)} {e : String × α}
    (h : e ∈ (ofList entries).entries) : e ∈ entries :=
  (mem_insertAll h).resolve_right List.not_mem_nil

/-! ## Values with an image -/

/-- An entry with the image of its value, if it has one. -/
def image? (f : α → Option β) (e : String × α) : Option (String × β) :=
  (f e.2).map fun value => (e.1, value)

/-- The same names with every value replaced by its image, if each has one. -/
def mapValues? (f : α → Option β) (m : NameMap α) : Option (NameMap β) :=
  (m.entries.mapM (image? f)).map ofList

theorem image?_eq_some {f : α → Option β} {e : String × α} {e' : String × β} :
    image? f e = some e' ↔ e'.1 = e.1 ∧ f e.2 = some e'.2 := by
  unfold image?
  rw [Option.map_eq_some_iff]
  constructor
  · rintro ⟨value, hvalue, rfl⟩
    exact ⟨rfl, hvalue⟩
  · rintro ⟨hname, hvalue⟩
    exact ⟨e'.2, hvalue, by rw [← hname]⟩

/-- The images stand under the same names. -/
theorem names_of_images {f : α → Option β} {entries : List (String × α)} {images : List (String × β)}
    (h : entries.mapM (image? f) = some images) : images.map (·.1) = entries.map (·.1) := by
  symm
  rw [← List.forall₂_eq_eq_eq, List.forall₂_map_left_iff, List.forall₂_map_right_iff]
  exact (mapM_eq_some.mp h).imp fun e e' he => (image?_eq_some.mp he).1.symm

theorem images_eq_self_iff {f : α → Option α} {entries : List (String × α)} :
    entries.mapM (image? f) = some entries ↔ ∀ e ∈ entries, f e.2 = some e.2 := by
  rw [mapM_eq_some, List.forall₂_same]
  refine forall₂_congr fun e _ => ?_
  rw [image?_eq_some]
  exact and_iff_right rfl

/-- The images of a map's entries are the entries of a map. -/
theorem mapValues?_eq_some {f : α → Option β} {m : NameMap α} {n : NameMap β} :
    m.mapValues? f = some n ↔ m.entries.mapM (image? f) = some n.entries := by
  unfold mapValues?
  rw [Option.map_eq_some_iff]
  constructor
  · rintro ⟨images, himages, rfl⟩
    have hascending : Ascending images := by
      have hnames : (m.entries.map (·.1)).Pairwise (· < ·) := List.pairwise_map.mpr m.ascending
      rw [← names_of_images himages] at hnames
      exact List.pairwise_map.mp hnames
    rw [himages, entries_ofList hascending]
  · intro h
    exact ⟨n.entries, h, ext_entries (entries_ofList n.ascending)⟩

theorem names_mapValues? {f : α → Option β} {m : NameMap α} {n : NameMap β}
    (h : m.mapValues? f = some n) : n.names = m.names :=
  names_of_images (mapValues?_eq_some.mp h)

/-- A map stays as it is when each value is its own image. -/
theorem mapValues?_eq_self_iff {f : α → Option α} {m : NameMap α} :
    m.mapValues? f = some m ↔ ∀ e ∈ m.entries, f e.2 = some e.2 := by
  rw [mapValues?_eq_some, images_eq_self_iff]

/-- A value without an image spoils the map. -/
theorem mapValues?_eq_none {f : α → Option β} {m : NameMap α} {e : String × α} (he : e ∈ m.entries)
    (hnone : f e.2 = none) : m.mapValues? f = none := by
  rw [Option.eq_none_iff_forall_ne_some]
  intro n hn
  have himages := mapM_eq_some.mp (mapValues?_eq_some.mp hn)
  obtain ⟨e', -, himage⟩ := exists_of_forall₂ himages.flip he
  rw [(image?_eq_some.mp himage).2] at hnone
  cases hnone

/-! ## Changes at some names -/

theorem mem_names_iff {m : NameMap α} {name : String} : name ∈ m.names ↔ (m.find? name).isSome = true := by
  unfold names find?
  rw [List.lookup_isSome_iff]
  constructor
  · intro h
    obtain ⟨e, he, rfl⟩ := List.mem_map.mp h
    exact ⟨e, he, beq_self_eq_true _⟩
  · rintro ⟨e, he, hname⟩
    exact List.mem_map.mpr ⟨e, he, (eq_of_beq hname).symm⟩

/-- The entries are what the names find. -/
theorem mem_entries_iff {m : NameMap α} {e : String × α} : e ∈ m.entries ↔ m.find? e.1 = some e.2 := by
  unfold find?
  rw [List.lookup_eq_some_iff]
  constructor
  · intro h
    obtain ⟨before, after, hentries⟩ := List.append_of_mem h
    refine ⟨before, after, hentries, fun other hother => ?_⟩
    -- the names before are below this one
    have hascending := m.ascending
    unfold Ascending at hascending
    rw [hentries] at hascending
    have hlt : other.1 < e.1 :=
      (List.pairwise_append.mp hascending).2.2 other hother e (List.mem_cons_self ..)
    rw [bne_iff_ne]
    intro hsame
    rw [hsame] at hlt
    exact String.lt_irrefl _ hlt
  · intro h
    obtain ⟨before, after, hentries, -⟩ := h
    rw [hentries]
    exact List.mem_append_right _ (List.mem_cons_self ..)

theorem find?_mapValues (f : String → α → β) (m : NameMap α) (name : String) :
    (m.mapValues f).find? name = (m.find? name).map (f name) := by
  show (m.entries.map fun e => (e.1, f e.1 e.2)).lookup name = (m.entries.lookup name).map (f name)
  induction m.entries with
  | nil => rfl
  | cons e rest ih =>
    rw [List.map_cons, lookup_cons_if, lookup_cons_if, ih]
    by_cases hname : name = e.1
    · rw [if_pos hname, if_pos hname, hname]
      rfl
    · rw [if_neg hname, if_neg hname]

/-- What a listing in the order of the names binds a name to, or else what was bound to it before. -/
theorem find?_insertAll {name : String} : ∀ {entries : List (String × α)} {m : NameMap α},
    Ascending entries → (m.insertAll entries).find? name = (entries.lookup name).or (m.find? name)
  | [], m, _ => rfl
  | (other, value) :: rest, m, h => by
    obtain ⟨hbelow, hrest⟩ := List.pairwise_cons.mp h
    rw [insertAll_cons, find?_insertAll hrest, find?_insert, lookup_cons_if]
    by_cases hname : name = other
    · -- the names go up, so this one does not come again
      subst hname
      rw [if_pos rfl, if_pos rfl, lookup_eq_none_of_lt hbelow]
      rfl
    · rw [if_neg hname, if_neg hname]

/-- A name that is only bound to what it was bound to before stays so. -/
theorem find?_insertAll_of_same {name : String} : ∀ {entries : List (String × α)} {m : NameMap α},
    (∀ e ∈ entries, e.1 = name → m.find? name = some e.2) →
      (m.insertAll entries).find? name = m.find? name
  | [], m, _ => rfl
  | e :: rest, m, h => by
    obtain ⟨he, hrest⟩ := List.forall_mem_cons.mp h
    have hkept : (m.insert e.1 e.2).find? name = m.find? name := by
      rw [find?_insert]
      by_cases hname : name = e.1
      · rw [if_pos hname, he hname.symm]
      · rw [if_neg hname]
    rw [insertAll_cons, find?_insertAll_of_same, hkept]
    intro other hother hname
    rw [hkept]
    exact hrest other hother hname

/-- Both maps bind the same names, and all but the given ones to the same values. -/
structure ChangesOnly (changed : List String) (m m' : NameMap α) : Prop where
  names : m'.names = m.names
  find? : ∀ name, name ∉ changed → m'.find? name = m.find? name

namespace ChangesOnly

variable {changed more : List String} {m m' m'' : NameMap α}

theorem refl (changed : List String) (m : NameMap α) : ChangesOnly changed m m := ⟨rfl, fun _ _ => rfl⟩

theorem trans (h : ChangesOnly changed m m') (h' : ChangesOnly changed m' m'') : ChangesOnly changed m m'' := by
  refine ⟨h'.names.trans h.names, ?_⟩
  intro name hname
  rw [h'.find? name hname, h.find? name hname]

theorem mono (h : ChangesOnly changed m m') (hmore : changed ⊆ more) : ChangesOnly more m m' :=
  ⟨h.names, fun name hname => h.find? name fun hmem => hname (hmore hmem)⟩

/-- Binding a name anew changes the map at that name. -/
theorem insert {name : String} (hbound : name ∈ m.names) (value : α) :
    ChangesOnly [name] m (m.insert name value) := by
  refine ⟨names_insert hbound value, ?_⟩
  intro other hother
  rw [find?_insert, if_neg fun heq => hother (List.mem_singleton.mpr heq)]

/-- Binding names anew changes the map at those of them that get another value. -/
theorem insertAll {entries : List (String × α)} (hbound : ∀ e ∈ entries, e.1 ∈ m.names)
    (hsame : ∀ e ∈ entries, e.1 ∉ changed → m.find? e.1 = some e.2) :
    ChangesOnly changed m (m.insertAll entries) := by
  refine ⟨names_insertAll hbound, ?_⟩
  intro name hname
  apply find?_insertAll_of_same
  intro e he heq
  rw [← heq] at hname ⊢
  exact hsame e he hname

end ChangesOnly

/-! ## Maps of lists in any order -/

/-- Of several bindings of a name in a list the last one stays. -/
theorem find?_insertAll_last {name : String} : ∀ {entries : List (String × α)} {m : NameMap α},
    (m.insertAll entries).find? name = (entries.reverse.lookup name).or (m.find? name)
  | [], _ => rfl
  | (other, value) :: rest, m => by
    rw [insertAll_cons, find?_insertAll_last, find?_insert, List.reverse_cons, List.lookup_append,
      Option.or_assoc, lookup_cons_if]
    by_cases hname : name = other
    · rw [if_pos hname, if_pos hname]
      rfl
    · rw [if_neg hname, if_neg hname]
      rfl

theorem find?_ofList (entries : List (String × α)) (name : String) :
    (ofList entries).find? name = entries.reverse.lookup name := by
  unfold ofList
  rw [find?_insertAll_last, find?_empty, Option.or_none]

/-- A name is bound to the value of the list's last entry with this name. -/
theorem find?_ofList_eq_some {entries : List (String × α)} {name : String} {value : α} :
    (ofList entries).find? name = some value ↔
      ∃ before after, entries = before ++ (name, value) :: after ∧ ∀ e ∈ after, e.1 ≠ name := by
  rw [find?_ofList, List.lookup_eq_some_iff]
  constructor
  · rintro ⟨after, before, hentries, hafter⟩
    refine ⟨before.reverse, after.reverse, ?_, ?_⟩
    · rw [← List.reverse_reverse entries, hentries, List.reverse_append, List.reverse_cons,
        List.append_assoc]
      rfl
    · intro e he
      exact (bne_iff_ne.mp (hafter e (List.mem_reverse.mp he))).symm
  · rintro ⟨before, after, rfl, hafter⟩
    refine ⟨after.reverse, before.reverse, ?_, ?_⟩
    · rw [List.reverse_append, List.reverse_cons, List.append_assoc]
      rfl
    · intro e he
      exact bne_iff_ne.mpr (hafter e (List.mem_reverse.mp he)).symm

theorem mem_names_ofList {entries : List (String × α)} {name : String} :
    name ∈ (ofList entries).names ↔ name ∈ entries.map (·.1) := by
  rw [mem_names_iff, find?_ofList, List.lookup_isSome_iff, List.mem_map]
  constructor
  · rintro ⟨e, he, hname⟩
    exact ⟨e, List.mem_reverse.mp he, (eq_of_beq hname).symm⟩
  · rintro ⟨e, he, rfl⟩
    exact ⟨e, List.mem_reverse.mpr he, beq_self_eq_true _⟩

theorem nodup_names (m : NameMap α) : m.names.Nodup := by
  refine (List.pairwise_map.mpr m.ascending).imp ?_
  rintro a _ hlt rfl
  exact String.lt_irrefl _ hlt

/-- No entry of a list is lost in its map just when their names differ. -/
theorem size_ofList_eq_iff {entries : List (String × α)} :
    (ofList entries).size = entries.length ↔ (entries.map (·.1)).Nodup := by
  have hnames : (ofList entries).names.Perm (entries.map (·.1)).dedup := by
    refine (List.perm_ext_iff_of_nodup (nodup_names _) (List.nodup_dedup _)).mpr fun name => ?_
    rw [mem_names_ofList, List.mem_dedup]
  have hsize : (ofList entries).size = (entries.map (·.1)).dedup.length := by
    rw [← hnames.length_eq]
    exact (List.length_map _).symm
  rw [hsize, ← List.dedup_eq_self]
  constructor
  · intro hlength
    exact (List.dedup_sublist _).eq_of_length (hlength.trans (List.length_map _).symm)
  · intro hself
    rw [hself, List.length_map]

section Distinct

variable {entries entries' : List (String × α)} (hnames : (entries.map (·.1)).Nodup)

include hnames

/-- Where the names of a list differ, its map holds its entries. -/
theorem find?_ofList_of_nodup {e : String × α} :
    (ofList entries).find? e.1 = some e.2 ↔ e ∈ entries := by
  constructor
  · intro h
    exact mem_of_mem_ofList (mem_entries_iff.mpr h)
  · intro h
    obtain ⟨before, after, rfl⟩ := List.append_of_mem h
    refine find?_ofList_eq_some.mpr ⟨before, after, rfl, fun other hother => ?_⟩
    have hrest := (List.nodup_append.mp (List.map_append ▸ hnames)).2.1
    rw [List.map_cons, List.nodup_cons] at hrest
    rintro hsame
    exact hrest.1 (List.mem_map.mpr ⟨other, hother, hsame⟩)

/-- Where the names of a list differ, their order plays no part. -/
theorem ofList_perm (hperm : entries'.Perm entries) : ofList entries' = ofList entries := by
  have hnames' : (entries'.map (·.1)).Nodup := (hperm.map _).nodup_iff.mpr hnames
  refine ext_find? fun name => Option.ext fun value => ?_
  rw [find?_ofList_of_nodup hnames' (e := (name, value)),
    find?_ofList_of_nodup hnames (e := (name, value)), hperm.mem_iff]

end Distinct

end NameMap

end Colloquy
