import Colloquy.FileTree

/-!
# Files that were written

A file that was written is found at the same path (`Disk.find?_writeFile`). To put a file into a tree
takes no folder away and empties none (`FileTree.Extends`), so the steps that led to the file's
folder before lead there still.
-/

namespace Colloquy

namespace FileTree

/-! ## Putting and finding -/

theorem find?_cons (name : String) (rest : List String) (tree : FileTree) :
    tree.find? (name :: rest) = (tree.entry? name).bind (find? rest) := rfl

/-- Names behind names lead on from where the first ones lead. -/
theorem find?_append (names more : List String) (tree : FileTree) :
    tree.find? (names ++ more) = (tree.find? names).bind (find? more) := by
  induction names generalizing tree with
  | nil => rfl
  | cons name rest ih =>
    rw [List.cons_append, find?_cons, find?_cons]
    cases tree.entry? name with
    | none => rfl
    | some inner => exact ih inner

theorem lookup_put (tree new : FileTree) (name other : String) (rest : List String) :
    entry? other (tree.put (name :: rest) new)
      = if other = name then some (((tree.entry? name).getD (folder [])).put rest new)
        else tree.entry? other := by
  cases tree with
  | file content =>
    show (NameMap.insertEntry name (put (folder []) rest new) []).lookup other = _
    rw [NameMap.lookup_insertEntry]
    rfl
  | folder entries =>
    show (NameMap.insertEntry name (put ((entries.lookup name).getD (folder [])) rest new)
      entries).lookup other = _
    rw [NameMap.lookup_insertEntry]
    rfl

/-- A tree is found where it was put. -/
theorem find?_put (tree new : FileTree) (names : List String) :
    (tree.put names new).find? names = some new := by
  induction names generalizing tree with
  | nil => rfl
  | cons name rest ih =>
    rw [find?_cons, lookup_put, if_pos rfl]
    exact ih _

/-- Every folder of the first tree is in the second one, and has there what it had. -/
def Extends (tree new : FileTree) : Prop :=
  ∀ place inner, tree.find? place = some inner → inner.isFolder = true →
    ∃ inner', new.find? place = some inner' ∧ inner'.isFolder = true ∧
      ∀ name, (inner.entry? name).isSome = true → (inner'.entry? name).isSome = true

theorem Extends.refl (tree : FileTree) : Extends tree tree :=
  fun _ inner hfind hfolder => ⟨inner, hfind, hfolder, fun _ => id⟩

/-- To put a tree where there is no folder takes nothing out of the folders. -/
theorem extends_put {tree : FileTree} (new : FileTree) {names : List String}
    (h : ∀ inner, tree.find? names = some inner → inner.isFolder = false) :
    Extends tree (tree.put names new) := by
  induction names generalizing tree with
  | nil =>
    intro place inner hfind hfolder
    have hfile : tree.isFolder = false := h tree rfl
    cases tree with
    | folder entries => cases hfile
    | file content =>
      cases place with
      | nil =>
        cases hfind
        cases hfolder
      | cons step rest => cases hfind
  | cons name rest ih =>
    intro place inner hfind hfolder
    cases place with
    | nil =>
      obtain rfl : tree = inner := Option.some.inj hfind
      refine ⟨_, rfl, rfl, fun other hother => ?_⟩
      rw [lookup_put]
      split
      · rfl
      · exact hother
    | cons step more =>
      rw [find?_cons] at hfind
      obtain ⟨next, hnext, hfind⟩ := Option.bind_eq_some_iff.mp hfind
      rw [find?_cons, lookup_put]
      by_cases hstep : step = name
      · subst hstep
        rw [if_pos rfl, hnext]
        have hfree : ∀ inner, next.find? rest = some inner → inner.isFolder = false := by
          intro inner hinner
          refine h inner ?_
          rw [find?_cons, hnext]
          exact hinner
        exact ih hfree more inner hfind hfolder
      · rw [if_neg hstep, hnext]
        exact Extends.refl next more inner hfind hfolder

end FileTree

namespace Disk

open FileTree (Extends extends_put find?_put find?_append)

/-! ## Walking -/

theorem walk_cons (root : FileTree) (place : List String) (step : String) (rest : List String) :
    walk root place (step :: rest) = (walk root place [step]).bind fun next => walk root next rest := by
  rw [walk, walk]
  split
  · split
    · rfl
    · split
      · rfl
      · split
        · rfl
        · rfl
  · rfl

theorem walk_append (root : FileTree) (steps more : List String) (place : List String) :
    walk root place (steps ++ more) = (walk root place steps).bind fun next => walk root next more := by
  induction steps generalizing place with
  | nil => rfl
  | cons step rest ih =>
    rw [List.cons_append, walk_cons, walk_cons root place step rest]
    cases walk root place [step] with
    | none => rfl
    | some next => exact ih next

/-- A step that can be taken can be taken where every folder has what it had. -/
theorem walk_step_of_extends {root new : FileTree} (h : Extends root new) {place next : List String}
    {step : String} (hstep : walk root place [step] = some next) :
    walk new place [step] = some next := by
  rw [walk] at hstep
  split at hstep
  · next entries hfolder =>
    obtain ⟨inner, hinner, hkind, hentries⟩ := h place _ hfolder rfl
    cases inner with
    | file content => cases hkind
    | folder entries' =>
      rw [walk, hinner]
      dsimp only
      by_cases hstays : FilePath.stays step = true
      · rw [if_pos hstays] at hstep ⊢
        exact hstep
      · rw [if_neg hstays] at hstep ⊢
        by_cases hup : step = ".."
        · rw [if_pos hup] at hstep ⊢
          exact hstep
        · rw [if_neg hup] at hstep ⊢
          by_cases hthere : (entries.lookup step).isSome = true
          · rw [if_pos hthere] at hstep
            have hthere' : (entries'.lookup step).isSome = true := hentries step hthere
            rw [if_pos hthere']
            exact hstep
          · rw [if_neg hthere] at hstep
            cases hstep
  · cases hstep

theorem walk_of_extends {root new : FileTree} (h : Extends root new) :
    ∀ {steps place next : List String}, walk root place steps = some next →
      walk new place steps = some next
  | [], _, _, hwalk => hwalk
  | step :: rest, place, next, hwalk => by
    rw [walk_cons] at hwalk ⊢
    obtain ⟨middle, hstep, hrest⟩ := Option.bind_eq_some_iff.mp hwalk
    rw [walk_step_of_extends h hstep]
    exact walk_of_extends h hrest

/-! ## Writing -/

/-- The last step of a path that names something. -/
theorem walk_last {root inner : FileTree} {place : List String} {name : String}
    (hstays : FilePath.stays name = false) (hup : name ≠ "..")
    (h : root.find? (place ++ [name]) = some inner) :
    walk root place [name] = some (place ++ [name]) := by
  rw [find?_append] at h
  obtain ⟨tree, htree, hentry⟩ := Option.bind_eq_some_iff.mp h
  cases tree with
  | file content => cases hentry
  | folder entries =>
    obtain ⟨there, hthere, -⟩ := Option.bind_eq_some_iff.mp hentry
    have hlookup : (entries.lookup name).isSome = true := Option.isSome_iff_exists.mpr ⟨there, hthere⟩
    rw [walk, htree]
    dsimp only
    rw [if_neg (by simp [hstays]), if_neg hup, if_pos hlookup]
    rfl

/-- How a file comes to be written: its path leads to a place, and a name there that no folder has. -/
structure Writing (d : Disk) (path : String) (content : ByteArray) (place : List String)
    (name : String) (d' : Disk) : Prop where
  walked : ∃ before, FilePath.steps path = before ++ [name] ∧
    walk d.root (d.origin path) before = some place
  usable : FilePath.isUsable FilePath.pathLimit path = true
  stays : FilePath.stays name = false
  up : name ≠ ".."
  folder : ∃ entries, d.root.find? place = some (.folder entries)
  free : ∀ inner, d.root.find? (place ++ [name]) = some inner → inner.isFolder = false
  disk : d' = { d with root := d.root.put (place ++ [name]) (.file content) }

theorem writing {d d' : Disk} {path : String} {content : ByteArray}
    (h : d.writeFile path content = some d') : ∃ place name, Writing d path content place name d' := by
  unfold writeFile at h
  split at h
  · cases h
  · next name before hsteps =>
    split at h
    · cases h
    · next hname =>
      obtain ⟨hstays, hup, -, husable⟩ : FilePath.stays name = false ∧ name ≠ ".." ∧
          FilePath.isUsable FilePath.nameLimit name = true ∧
          FilePath.isUsable FilePath.pathLimit path = true := by simpa using hname
      have hpath : FilePath.steps path = before.reverse ++ [name] := by
        rw [← List.reverse_reverse (FilePath.steps path), hsteps, List.reverse_cons]
      obtain ⟨place, hplace, h⟩ := Option.bind_eq_some_iff.mp h
      obtain ⟨tree, htree, h⟩ := Option.bind_eq_some_iff.mp h
      refine ⟨place, name, ?_⟩
      cases tree with
      | file content => cases h
      | folder entries =>
        have hthere : d.root.find? (place ++ [name]) = entries.lookup name := by
          rw [find?_append, htree]
          exact Option.bind_fun_some _
        dsimp only at h
        split at h
        · cases h
        · next hfree =>
          refine ⟨⟨before.reverse, hpath, hplace⟩, husable, hstays, hup, ⟨entries, htree⟩,
            fun inner hinner => ?_, (Option.some.inj h).symm⟩
          rw [hthere] at hinner
          cases inner with
          | file content => rfl
          | folder inside => exact absurd hinner (hfree inside)

/-- A path leads to the place where a file was written at it. -/
theorem Writing.locate?_eq {d d' : Disk} {path : String} {content : ByteArray} {place : List String}
    {name : String} (h : Writing d path content place name d') :
    d'.locate? path = some (place ++ [name]) := by
  obtain ⟨before, hsteps, hplace⟩ := h.walked
  obtain rfl := h.disk
  have hnonempty : path ≠ "" := by
    rintro rfl
    -- the only step of the empty path stays where it is
    have hlast : FilePath.steps "" = [] ++ [""] := rfl
    obtain ⟨-, hname⟩ := List.append_inj' (hsteps.symm.trans hlast) rfl
    obtain rfl := List.singleton_inj.mp hname
    exact absurd h.stays (by decide)
  unfold locate?
  rw [if_neg (by simp [hnonempty, h.usable]), hsteps]
  show walk _ (d.origin path) _ = _
  rw [walk_append, walk_of_extends (extends_put _ h.free) hplace]
  exact walk_last h.stays h.up (find?_put d.root (.file content) (place ++ [name]))

/-- **A file that was written is there.** -/
theorem find?_writeFile {d d' : Disk} {path : String} {content : ByteArray}
    (h : d.writeFile path content = some d') : d'.find? path = some (.file content) := by
  obtain ⟨place, name, hwriting⟩ := writing h
  unfold find?
  rw [hwriting.locate?_eq]
  obtain rfl := hwriting.disk
  exact find?_put d.root (.file content) (place ++ [name])

end Disk

theorem fromUTF8?_toUTF8 (s : String) : String.fromUTF8? s.toUTF8 = some s := by
  have hvalid : s.toUTF8.IsValidUTF8 := s.isValidUTF8
  unfold String.fromUTF8?
  rw [dif_pos hvalid]
  rfl

end Colloquy
