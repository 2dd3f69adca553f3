import Colloquy.Proofs.Action
import Colloquy.Scenario

/-!
# Scenarios that are loaded again

A scenario is named by the absolute path of its folder, so it can be loaded again from its name,
whatever the current folder is by then. Its files are the scripts below the folder and the file with
the starting state; what else is in the folder plays no part (`Scenario.Kept`). Main statement,
`Scenario.loadById_of_load`: where these files are as they were, the scenario that was loaded is
loaded again from its name.
-/

namespace Colloquy

namespace FilePath

theorem join_of_absolute {path : String} (h : isAbsolute path = true) (folder : String) :
    join folder path = path := if_pos h

theorem isAbsolute_append {path : String} (h : isAbsolute path = true) (more : String) :
    isAbsolute (path ++ more) = true := by
  unfold isAbsolute at h ⊢
  rw [String.toList_append]
  cases hchars : path.toList with
  | nil =>
    rw [hchars] at h
    cases h
  | cons c rest =>
    rw [hchars] at h
    exact h

/-- A path from an absolute folder is absolute. -/
theorem isAbsolute_join {folder : String} (h : isAbsolute folder = true) (path : String) :
    isAbsolute (join folder path) = true := by
  unfold join
  split
  · next habsolute => exact habsolute
  · split
    · exact isAbsolute_append h _
    · rw [String.append_assoc]
      exact isAbsolute_append h _

end FilePath

namespace Scenario

/-- The path of a scripts folder, as the scenario's name has it. -/
def folderPath (d : Disk) (scripts : String) : String := FilePath.join d.currentPath scripts

theorem isAbsolute_folderPath (d : Disk) (scripts : String) :
    FilePath.isAbsolute (folderPath d scripts) = true := by
  have hcurrent : FilePath.isAbsolute d.currentPath = true :=
    FilePath.isAbsolute_append rfl _
  exact FilePath.isAbsolute_join hcurrent scripts

theorem pathOfId?_mark (path : String) : pathOfId? (idMark ++ path) = some path := by
  unfold pathOfId?
  rw [String.toList_append]
  simp

/-- The scripts below a folder, with the names that lead to them. -/
def scriptFiles (d : Disk) (folder : String) : List (List String × ByteArray) :=
  ((d.find? folder).getD (.folder [])).files.filter fun f => isScript folder f.1

/-- The files of a scenario are on the second disk as on the first: the folder is there, the scripts
below it are the same, and so is the file with the starting state, or there is none on both. -/
structure Kept (folder : String) (d d' : Disk) : Prop where
  there : ∀ entries, d.find? folder = some (.folder entries) →
    ∃ entries', d'.find? folder = some (.folder entries')
  scripts : scriptFiles d' folder = scriptFiles d folder
  host : d'.bytes? (FilePath.join folder hostFile) = d.bytes? (FilePath.join folder hostFile)

theorem resolveFolder_eq_ok {d : Disk} {path folder : String} :
    resolveFolder d path = .ok folder ↔
      folder = folderPath d path ∧ ∃ entries, d.find? (folderPath d path) = some (.folder entries) := by
  unfold resolveFolder folderPath
  dsimp only
  cases d.find? (FilePath.join d.currentPath path) with
  | none => simp
  | some tree => cases tree <;> simp [eq_comm]

theorem readScripts_of_kept {folder : String} {d d' : Disk} (h : Kept folder d d') :
    readScripts d' folder = readScripts d folder := by
  have hscripts : scriptsOf? folder ((d'.find? folder).getD (.folder []))
      = scriptsOf? folder ((d.find? folder).getD (.folder [])) := by
    unfold scriptsOf?
    show ((scriptFiles d' folder).mapM _ >>= _) = ((scriptFiles d folder).mapM _ >>= _)
    rw [h.scripts]
  unfold readScripts
  rw [hscripts]

theorem readHost_of_kept {folder : String} {d d' : Disk} (h : Kept folder d d') :
    readHost d' folder = readHost d folder := by
  unfold readHost
  dsimp only
  rw [h.host]

/-- **A scenario is loaded again** from its name where its files are as they were. -/
theorem loadById_of_load {d d' : Disk} {scripts : String} {s : Scenario} (h : load d scripts = .ok s)
    (hkept : Kept (folderPath d scripts) d d') : loadById d' s.id = .ok s := by
  obtain ⟨folder, hfolder, h⟩ := bind_eq_ok.mp h
  obtain ⟨sources, hsources, h⟩ := bind_eq_ok.mp h
  obtain ⟨host, hhost, h⟩ := bind_eq_ok.mp h
  cases h
  obtain ⟨rfl, entries, hentries⟩ := resolveFolder_eq_ok.mp hfolder
  -- an absolute path is taken as it is, so the folder is the same from every current folder
  have hpath : folderPath d' (folderPath d scripts) = folderPath d scripts :=
    FilePath.join_of_absolute (isAbsolute_folderPath d scripts) _
  have hresolved : resolveFolder d' (folderPath d scripts) = .ok (folderPath d scripts) := by
    rw [resolveFolder_eq_ok, hpath]
    exact ⟨rfl, hkept.there entries hentries⟩
  rw [← readScripts_of_kept hkept] at hsources
  rw [← readHost_of_kept hkept] at hhost
  unfold loadById
  rw [pathOfId?_mark]
  exact bind_eq_ok.mpr ⟨_, hresolved, bind_eq_ok.mpr ⟨_, hsources, bind_eq_ok.mpr ⟨_, hhost, rfl⟩⟩⟩

end Scenario

end Colloquy
