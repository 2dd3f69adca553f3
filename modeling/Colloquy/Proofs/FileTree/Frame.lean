import Colloquy.Proofs.FileTree

/-!
# What writing leaves alone

A tree changes only at some places (`FileTree.ChangesOnly`) when at every other place there is a file
with the same bytes as before, or none as before. To put a file into a folder changes one place
(`changesOnly_put_file`), and to make folders changes none, as long as they are made in a folder that
is there (`Disk.changesOnly_makeFolders`). Main statement, `Disk.changesOnly_writeFile`: writing
a file changes what is at its path.
-/

namespace Colloquy

namespace FileTree

/-- The bytes of the file at a place, if there is a file. -/
def fileAt? (tree : FileTree) (place : List String) : Option ByteArray :=
  match tree.find? place with
  | some (.file content) => some content
  | _ => none

/-- All places but the given ones have the files that they had. -/
def ChangesOnly (changed : List (List String)) (tree new : FileTree) : Prop :=
  ∀ place, place ∉ changed → new.fileAt? place = tree.fileAt? place

namespace ChangesOnly

variable {changed more : List (List String)} {tree new newer : FileTree}

theorem refl (changed : List (List String)) (tree : FileTree) : ChangesOnly changed tree tree :=
  fun _ _ => rfl

theorem trans (h : ChangesOnly changed tree new) (h' : ChangesOnly changed new newer) :
    ChangesOnly changed tree newer :=
  fun place hplace => (h' place hplace).trans (h place hplace)

theorem mono (h : ChangesOnly changed tree new) (hmore : changed ⊆ more) : ChangesOnly more tree new :=
  fun place hplace => h place fun hmem => hplace (hmore hmem)

end ChangesOnly

/-! ## Putting into a folder -/

theorem fileAt?_cons (name : String) (rest : List String) (tree : FileTree) :
    tree.fileAt? (name :: rest) = (tree.entry? name).bind fun inner => inner.fileAt? rest := by
  unfold fileAt?
  rw [find?_cons]
  cases tree.entry? name <;> rfl

/-- Names behind names lead on from where the first ones lead. -/
theorem fileAt?_append (names more : List String) (tree : FileTree) :
    tree.fileAt? (names ++ more) = (tree.find? names).bind fun inner => inner.fileAt? more := by
  unfold fileAt?
  rw [find?_append]
  cases tree.find? names <;> rfl

/-- A tree that is put into a folder leaves every file that is not below its place as it was. -/
theorem fileAt?_put {tree new : FileTree} {name : String} {place other : List String}
    {entries : List (String × FileTree)} (hfolder : tree.find? place = some (.folder entries))
    (hother : ¬place ++ [name] <+: other) :
    (tree.put (place ++ [name]) new).fileAt? other = tree.fileAt? other := by
  induction place generalizing tree other with
  | nil =>
    obtain rfl := Option.some.inj hfolder
    cases other with
    | nil => rfl
    | cons step rest =>
      have hstep : step ≠ name := by
        rintro rfl
        exact hother ⟨rest, rfl⟩
      rw [List.nil_append, fileAt?_cons, lookup_put, if_neg hstep, fileAt?_cons]
  | cons first place ih =>
    rw [find?_cons] at hfolder
    obtain ⟨inner, hinner, hinside⟩ := Option.bind_eq_some_iff.mp hfolder
    cases other with
    | nil =>
      cases tree with
      | file content => cases hinner
      | folder entries => rfl
    | cons step rest =>
      rw [List.cons_append, fileAt?_cons, lookup_put, fileAt?_cons]
      by_cases hstep : step = first
      · subst hstep
        rw [if_pos rfl, hinner]
        exact ih hinside fun hprefix => hother (List.cons_prefix_cons.mpr ⟨rfl, hprefix⟩)
      · rw [if_neg hstep]

section Put

variable {tree : FileTree} {name : String} {place : List String} {entries : List (String × FileTree)}
  (hfolder : tree.find? place = some (.folder entries))

include hfolder

/-- To put a file into a folder that has no folder of its name changes one place. -/
theorem changesOnly_put_file (content : ByteArray)
    (hfree : ∀ inner, tree.find? (place ++ [name]) = some inner → inner.isFolder = false) :
    ChangesOnly [place ++ [name]] tree (tree.put (place ++ [name]) (.file content)) := by
  intro other hother
  by_cases hbelow : place ++ [name] <+: other
  · -- below a file there is nothing, before as after
    obtain ⟨more, rfl⟩ := hbelow
    obtain ⟨step, rest, rfl⟩ : ∃ step rest, more = step :: rest := by
      cases more with
      | nil => exact absurd (List.mem_singleton.mpr (List.append_nil _)) hother
      | cons step rest => exact ⟨step, rest, rfl⟩
    rw [fileAt?_append, find?_put, fileAt?_append]
    cases hinner : tree.find? (place ++ [name]) with
    | none => rfl
    | some inner =>
      cases inner with
      | file old => rfl
      | folder inside => cases hfree _ hinner
  · exact fileAt?_put hfolder hbelow

/-- To put an empty folder where nothing was changes no file. -/
theorem changesOnly_put_folder (hfree : tree.find? (place ++ [name]) = none) :
    ChangesOnly [] tree (tree.put (place ++ [name]) (.folder [])) := by
  intro other _
  by_cases hbelow : place ++ [name] <+: other
  · obtain ⟨more, rfl⟩ := hbelow
    rw [fileAt?_append, find?_put, fileAt?_append, hfree]
    cases more <;> rfl
  · exact fileAt?_put hfolder hbelow

end Put

end FileTree

namespace Disk

open FileTree (ChangesOnly changesOnly_put_file changesOnly_put_folder find?_put find?_append)

/-! ## Making folders -/

/-- What is above a folder is a folder. -/
theorem folder_dropLast {root : FileTree} {place : List String} {entries : List (String × FileTree)}
    (h : root.find? place = some (.folder entries)) :
    ∃ entries', root.find? place.dropLast = some (.folder entries') := by
  rcases List.eq_nil_or_concat place with rfl | ⟨init, last, rfl⟩
  · exact ⟨entries, h⟩
  · rw [List.concat_eq_append, find?_append] at h
    obtain ⟨tree, htree, hentry⟩ := Option.bind_eq_some_iff.mp h
    rw [List.concat_eq_append, List.dropLast_concat]
    cases tree with
    | file content => cases hentry
    | folder entries' => exact ⟨entries', htree⟩

/-- A tree with a folder in it is one. -/
theorem folder_nil {root : FileTree} {place : List String} {entries : List (String × FileTree)}
    (h : root.find? place = some (.folder entries)) :
    ∃ entries', root.find? [] = some (.folder entries') := by
  cases place with
  | nil => exact ⟨entries, h⟩
  | cons name rest =>
    cases root with
    | file content => cases h
    | folder entries' => exact ⟨entries', rfl⟩

/-- To make folders, from a folder that is there, changes no file. -/
theorem changesOnly_makeFolders : ∀ {steps : List String} {root : FileTree} {place : List String}
    {entries : List (String × FileTree)}, root.find? place = some (.folder entries) →
      ChangesOnly [] root (makeFolders root place steps).1
  | [], root, _, _, _ => .refl [] root
  | step :: rest, root, place, entries, hfolder => by
    rw [makeFolders]
    split
    · exact changesOnly_makeFolders hfolder
    · split
      · obtain ⟨above, habove⟩ := folder_dropLast hfolder
        exact changesOnly_makeFolders habove
      · dsimp only
        split
        · next inside hinside => exact changesOnly_makeFolders hinside
        · exact .refl [] root
        · next hfree =>
          split
          · have hmade := find?_put root (.folder []) (place ++ [step])
            exact (changesOnly_put_folder hfolder hfree).trans (changesOnly_makeFolders hmade)
          · exact .refl [] root

/-- Whether the current folder is there. -/
def HasCurrent (d : Disk) : Prop := ∃ entries, d.root.find? d.current = some (.folder entries)

theorem changesOnly_makeParent {d : Disk} (h : d.HasCurrent) (path : String) :
    ChangesOnly [] d.root (d.makeParent path).1.root := by
  obtain ⟨entries, hcurrent⟩ := h
  have horigin : ∃ entries, d.root.find? (d.origin path) = some (.folder entries) := by
    unfold origin
    split
    · exact folder_nil hcurrent
    · exact ⟨entries, hcurrent⟩
  obtain ⟨start, hstart⟩ := horigin
  unfold makeParent
  dsimp only
  split
  · exact changesOnly_makeFolders hstart
  · exact .refl [] d.root

/-! ## Writing -/

/-- **Writing changes the file that is written**, and no other file. -/
theorem changesOnly_writeFile {d d' : Disk} {path : String} {content : ByteArray}
    (h : d.writeFile path content = some d') : ∃ place, d'.locate? path = some place ∧
      ChangesOnly [place] d.root d'.root := by
  obtain ⟨place, name, hwriting⟩ := writing h
  obtain ⟨entries, hfolder⟩ := hwriting.folder
  refine ⟨place ++ [name], hwriting.locate?_eq, ?_⟩
  obtain rfl := hwriting.disk
  exact changesOnly_put_file hfolder content hwriting.free

end Disk

end Colloquy
