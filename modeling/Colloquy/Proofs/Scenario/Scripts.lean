import Colloquy.Proofs.FileTree
import Colloquy.Proofs.NameMap
import Colloquy.Proofs.Scenario
import Colloquy.Replay

/-!
# No script is lost

A walk through a folder meets every file below it, in an order of its own, and the scripts among them
are put into a map under their keys (`Scenario.scriptsAlong?`). A key is the path of a script with
slashes for its backslashes, so two scripts have one key when their paths differ only in that, and
then the later one of the walk stays (`scriptsAlong?_eq_some`). Main statement,
`Scenario.no_script_lost_iff`: a scenario has an entry for each script just when no two scripts share
a key, which holds where no name has a backslash; any walk gives the same map then, a test case's
walk too.
-/

namespace Colloquy

/-! ## The files of a tree -/

namespace FileTree

/-- Whether the entries of every folder have names of their own, as a file system has them: not
empty and without a slash. -/
inductive Proper : FileTree → Prop
  | file (content : ByteArray) : Proper (.file content)
  | folder {entries : List (String × FileTree)} (distinct : (entries.map (·.1)).Nodup)
      (named : ∀ e ∈ entries, e.1 ≠ "" ∧ '/' ∉ e.1.toList) (inner : ∀ e ∈ entries, Proper e.2) :
      Proper (.folder entries)

theorem mem_filesOfEntries {f : List String × ByteArray} : ∀ {entries : List (String × FileTree)},
    f ∈ filesOfEntries entries ↔ ∃ e ∈ entries, ∃ g ∈ e.2.files, (e.1 :: g.1, g.2) = f
  | [] => by simp [filesOfEntries]
  | (name, tree) :: rest => by
    rw [filesOfEntries, List.mem_append, mem_filesOfEntries, List.mem_map]
    simp

theorem names_of_mem_files {tree : FileTree} (h : tree.Proper) :
    ∀ {f : List String × ByteArray}, f ∈ tree.files → ∀ name ∈ f.1, name ≠ "" ∧ '/' ∉ name.toList := by
  induction h with
  | file content =>
    intro f hf name hname
    rw [files, List.mem_singleton] at hf
    subst hf
    cases hname
  | folder _ named _ ih =>
    intro f hf name hname
    rw [files, mem_filesOfEntries] at hf
    obtain ⟨e, he, g, hg, rfl⟩ := hf
    rcases List.mem_cons.mp hname with rfl | hname
    · exact named e he
    · exact ih e he hg name hname

theorem nodup_filesOfEntries : ∀ {entries : List (String × FileTree)}, (entries.map (·.1)).Nodup →
    (∀ e ∈ entries, (e.2.files.map (·.1)).Nodup) → ((filesOfEntries entries).map (·.1)).Nodup
  | [], _, _ => List.nodup_nil
  | (name, tree) :: rest, hdistinct, hinner => by
    obtain ⟨hname, hrest⟩ := List.nodup_cons.mp hdistinct
    obtain ⟨htree, hinner⟩ := List.forall_mem_cons.mp hinner
    have hbelow : (tree.files.map fun f => (name :: f.1, f.2)).map (·.1)
        = (tree.files.map (·.1)).map (name :: ·) := by
      rw [List.map_map, List.map_map]
      rfl
    rw [filesOfEntries, List.map_append, hbelow]
    refine (htree.map List.cons_injective).append (nodup_filesOfEntries hrest hinner) ?_
    -- what leads to a file starts with the name of the entry that it is below
    intro names hnames hnames'
    obtain ⟨below, -, rfl⟩ := List.mem_map.mp hnames
    obtain ⟨f, hf, hsame⟩ := List.mem_map.mp hnames'
    obtain ⟨e, he, g, -, rfl⟩ := mem_filesOfEntries.mp hf
    obtain ⟨hfirst, -⟩ := List.cons_eq_cons.mp hsame
    exact hname (List.mem_map.mpr ⟨e, he, hfirst⟩)

/-- Different files of a tree are below different names. -/
theorem nodup_files {tree : FileTree} (h : tree.Proper) : (tree.files.map (·.1)).Nodup := by
  induction h with
  | file content => exact List.nodup_singleton _
  | folder distinct _ _ ih =>
    rw [files]
    exact nodup_filesOfEntries distinct ih

end FileTree

namespace Scenario

/-! ## Keys -/

theorem mem_intercalate {mark c : Char} : ∀ {parts : List (List Char)},
    c ∈ [mark].intercalate parts → c = mark ∨ ∃ part ∈ parts, c ∈ part
  | [], h => by
    rw [List.intercalate_nil] at h
    cases h
  | [part], h => by
    rw [List.intercalate_singleton] at h
    exact Or.inr ⟨part, List.mem_singleton_self _, h⟩
  | part :: next :: rest, h => by
    rw [List.intercalate_cons_cons, List.mem_append, List.mem_append, List.mem_singleton] at h
    rcases h with (h | h) | h
    · exact Or.inr ⟨part, List.mem_cons_self .., h⟩
    · exact Or.inl h
    · obtain h | ⟨other, hother, h⟩ := mem_intercalate h
      · exact Or.inl h
      · exact Or.inr ⟨other, List.mem_cons_of_mem _ hother, h⟩

/-- Names are read off their path again, if there are any: they have no slash. -/
theorem splitOn_path {names : List String} (h : ∀ name ∈ names, name ≠ "" ∧ '/' ∉ name.toList)
    (hne : names ≠ []) : ("/".intercalate names).toList.splitOn '/' = names.map String.toList := by
  have hslashless : ∀ part ∈ names.map String.toList, '/' ∉ part := by
    intro part hpart
    obtain ⟨name, hname, rfl⟩ := List.mem_map.mp hpart
    exact (h name hname).2
  rw [String.toList_intercalate]
  exact List.splitOn_intercalate '/' hslashless (mt List.map_eq_nil_iff.mp hne)

/-- Where no name has a backslash, the key of a script is its path. -/
theorem sourceKey_of_no_backslash {names : List String} (h : ∀ name ∈ names, '\\' ∉ name.toList) :
    sourceKey names = "/".intercalate names := by
  have hkept : ∀ c ∈ ("/".intercalate names).toList, (if c = '\\' then '/' else c) = c := by
    intro c hc
    rw [String.toList_intercalate] at hc
    refine if_neg ?_
    rintro rfl
    obtain hslash | ⟨part, hpart, hc⟩ := mem_intercalate hc
    · cases hslash
    · obtain ⟨name, hname, rfl⟩ := List.mem_map.mp hpart
      exact h name hname hc
  unfold sourceKey
  rw [List.map_congr_left hkept, List.map_id', String.ofList_toList]

theorem eq_of_sourceKey_eq {names names' : List String}
    (h : ∀ name ∈ names, name ≠ "" ∧ '/' ∉ name.toList) (hne : names ≠ [])
    (h' : ∀ name ∈ names', name ≠ "" ∧ '/' ∉ name.toList) (hne' : names' ≠ [])
    (hplain : ∀ name ∈ names, '\\' ∉ name.toList) (hplain' : ∀ name ∈ names', '\\' ∉ name.toList)
    (hsame : sourceKey names = sourceKey names') : names = names' := by
  rw [sourceKey_of_no_backslash hplain, sourceKey_of_no_backslash hplain'] at hsame
  have hparts : names.map String.toList = names'.map String.toList := by
    rw [← splitOn_path h hne, ← splitOn_path h' hne', hsame]
  exact (List.map_injective_iff.mpr fun _ _ => String.toList_inj.mp) hparts

/-! ## A walk -/

/-- The files below a folder, in the order of their names. -/
def filesBelow (d : Disk) (folder : String) : List (List String × ByteArray) :=
  ((d.find? folder).getD (.folder [])).files

/-- The map of the scripts that a walk through files meets; `none` if one of them is not text. -/
def scriptsAlong? (root : String) (walk : List (List String × ByteArray)) : Option (NameMap String) := do
  let scripts ← (walk.filter fun f => isScript root f.1).mapM fun f =>
    (String.fromUTF8? f.2).map fun text => (sourceKey f.1, text)
  some (.ofList scripts)

theorem scriptsOf?_eq (root : String) (tree : FileTree) :
    scriptsOf? root tree = scriptsAlong? root tree.files := rfl

/-- The text of a script, if it is one. -/
def scriptText (f : List String × ByteArray) : String := (String.fromUTF8? f.2).getD ""

/-- The texts of scripts under their keys. -/
def scriptMap (scripts : List (List String × ByteArray)) : NameMap String :=
  .ofList (scripts.map fun f => (sourceKey f.1, scriptText f))

variable {root : String} {walk scripts scripts' : List (List String × ByteArray)}

theorem scriptsAlong?_of_text (hscripts : (walk.filter fun f => isScript root f.1) = scripts)
    (htext : ∀ f ∈ scripts, (String.fromUTF8? f.2).isSome = true) :
    scriptsAlong? root walk = some (scriptMap scripts) := by
  have hentries : (scripts.mapM fun f =>
      (String.fromUTF8? f.2).map fun text => (sourceKey f.1, text))
      = some (scripts.map fun f => (sourceKey f.1, scriptText f)) := by
    rw [mapM_eq_some, List.forall₂_map_right_iff, List.forall₂_same]
    intro f hf
    obtain ⟨text, hread⟩ := Option.isSome_iff_exists.mp (htext f hf)
    unfold scriptText
    rw [hread]
    rfl
  unfold scriptsAlong?
  rw [hscripts, hentries]
  rfl

/-- Of several scripts with one key the last one that is met stays. -/
theorem find?_scriptMap {key text : String} : (scriptMap scripts).find? key = some text ↔
    ∃ before f after, scripts = before ++ f :: after ∧ sourceKey f.1 = key ∧ scriptText f = text ∧
      ∀ g ∈ after, sourceKey g.1 ≠ key := by
  unfold scriptMap
  rw [NameMap.find?_ofList_eq_some]
  constructor
  · rintro ⟨before, after, hentries, hafter⟩
    obtain ⟨first, rest, rfl, rfl, hrest⟩ := List.map_eq_append_iff.mp hentries
    obtain ⟨f, last, rfl, hf, rfl⟩ := List.map_eq_cons_iff.mp hrest
    obtain ⟨hkey, htext⟩ := Prod.mk.inj hf
    exact ⟨first, f, last, rfl, hkey, htext, fun g hg => hafter _ (List.mem_map.mpr ⟨g, hg, rfl⟩)⟩
  · rintro ⟨before, f, after, rfl, rfl, rfl, hafter⟩
    refine ⟨_, _, List.map_append .., fun e he => ?_⟩
    obtain ⟨g, hg, rfl⟩ := List.mem_map.mp he
    exact hafter g hg

theorem size_scriptMap_eq_zero : (scriptMap scripts).size = 0 ↔ scripts = [] := by
  constructor
  · intro hsize
    cases scripts with
    | nil => rfl
    | cons f rest =>
      have hbound : sourceKey f.1 ∈ (scriptMap (f :: rest)).names :=
        NameMap.mem_names_ofList.mpr (List.mem_cons_self ..)
      unfold NameMap.names at hbound
      rw [List.eq_nil_of_length_eq_zero hsize] at hbound
      cases hbound
  · rintro rfl
    rfl

/-- Whether no two scripts have one key. -/
def KeysDiffer (scripts : List (List String × ByteArray)) : Prop :=
  ∀ f ∈ scripts, ∀ g ∈ scripts, sourceKey f.1 = sourceKey g.1 → f = g

/-- No script is lost in a map: it has as many entries as there are scripts, and every script has
its text under its own key, which no other script has. -/
structure HasAll (scripts : List (List String × ByteArray)) (m : NameMap String) : Prop where
  size : m.size = scripts.length
  own : ∀ f ∈ scripts, ∃ text, String.fromUTF8? f.2 = some text ∧ m.find? (sourceKey f.1) = some text
  differ : KeysDiffer scripts

/-- The names in a map of scripts that are listed once each. -/
theorem nodup_keys_iff (hnames : (scripts.map (·.1)).Nodup) :
    ((scripts.map fun f => (sourceKey f.1, scriptText f)).map (·.1)).Nodup ↔ KeysDiffer scripts := by
  have hkeys : (scripts.map fun f => (sourceKey f.1, scriptText f)).map (·.1)
      = scripts.map fun f => sourceKey f.1 := List.map_map ..
  rw [hkeys]
  constructor
  · intro hnodup f hf g hg hsame
    exact List.inj_on_of_nodup_map hnodup hf hg hsame
  · intro hdiffer
    exact (List.Nodup.of_map _ hnames).map_on hdiffer

/-- A script is lost just when two have one key. -/
theorem hasAll_scriptMap_iff (hnames : (scripts.map (·.1)).Nodup)
    (htext : ∀ f ∈ scripts, (String.fromUTF8? f.2).isSome = true) :
    HasAll scripts (scriptMap scripts) ↔ KeysDiffer scripts := by
  refine ⟨HasAll.differ, fun hdiffer => ?_⟩
  have hnodup := (nodup_keys_iff hnames).mpr hdiffer
  refine ⟨?_, fun f hf => ?_, hdiffer⟩
  · exact (NameMap.size_ofList_eq_iff.mpr hnodup).trans (List.length_map _)
  · obtain ⟨text, hread⟩ := Option.isSome_iff_exists.mp (htext f hf)
    have hentry : (sourceKey f.1, text) ∈ scripts.map fun f => (sourceKey f.1, scriptText f) := by
      refine List.mem_map.mpr ⟨f, hf, ?_⟩
      unfold scriptText
      rw [hread]
      rfl
    exact ⟨text, hread, (NameMap.find?_ofList_of_nodup hnodup).mpr hentry⟩

/-- Where the keys differ, it plays no part in which order the scripts are met. -/
theorem scriptMap_perm (hnames : (scripts.map (·.1)).Nodup) (hdiffer : KeysDiffer scripts)
    (hperm : scripts'.Perm scripts) : scriptMap scripts' = scriptMap scripts :=
  NameMap.ofList_perm ((nodup_keys_iff hnames).mpr hdiffer) (hperm.map _)

end Scenario

/-! ## The walk of a test case -/

namespace Replay

/-- The map of the scripts that a walk through the files below a path meets. -/
def scriptsAlong (path : String) (walk : List (List String × ByteArray)) :
    Except Failure (NameMap String) :=
  match Scenario.scriptsAlong? path walk with
  | none => .error (.unreadable path)
  | some scripts => if scripts.size = 0 then .error (.noScripts path) else .ok scripts

/-- The state beside the scripts; without a file it is empty. -/
def stateBeside (d : Disk) (path : String) : Except Failure Sandbox.State :=
  let hostPath := FilePath.join path Scenario.hostFile
  match d.bytes? hostPath with
  | none => .ok .empty
  | some content =>
    match String.fromUTF8? content with
    | none => .error (.unreadable hostPath)
    | some text =>
      match (Json.read? text).bind (Sandbox.State.ofJson? Json.depthLimit) with
      | some host => .ok host
      | none => .error (.invalidHost hostPath)

/-- A test case reads the scripts of one walk, and then the state beside them. -/
theorem readScenario_eq (d : Disk) (path : String) :
    readScenario d path = (scriptsAlong path (Scenario.filesBelow d path)).bind fun scripts =>
      (stateBeside d path).map fun host => (scripts, host) := by
  unfold readScenario scriptsAlong Scenario.filesBelow
  cases d.find? path with
  | none => rfl
  | some tree =>
    dsimp only [Option.getD_some, Scenario.scriptsOf?_eq]
    cases Scenario.scriptsAlong? path tree.files with
    | none => rfl
    | some scripts =>
      dsimp only [bind, Except.bind]
      by_cases hsize : scripts.size = 0
      · rw [if_pos hsize, if_pos hsize]
      · rw [if_neg hsize, if_neg hsize]
        unfold stateBeside
        dsimp only
        cases d.bytes? (FilePath.join path Scenario.hostFile) with
        | none => rfl
        | some content =>
          dsimp only
          cases String.fromUTF8? content with
          | none => rfl
          | some text =>
            dsimp only
            cases (Json.read? text).bind (Sandbox.State.ofJson? Json.depthLimit) <;> rfl

/-- The file beside the scripts is not what tells that there are none. -/
theorem stateBeside_ne_noScripts (d : Disk) (path : String) :
    stateBeside d path ≠ .error (.noScripts path) := by
  unfold stateBeside
  dsimp only
  intro hnone
  split at hnone
  · cases hnone
  · split at hnone
    · cases hnone
    · split at hnone <;> cases hnone

end Replay

namespace Scenario

/-! ## The two readers -/

theorem refused_iff {ε α : Type} {p : Prop} [Decidable p] {cause : ε} {value : α} :
    (if p then Except.error cause else .ok value) = .error cause ↔ p := by
  by_cases hp : p
  · rw [if_pos hp]
    exact iff_of_true rfl hp
  · rw [if_neg hp]
    exact iff_of_false (fun h => nomatch h) hp

variable {d : Disk} {folder : String}

theorem readScripts_eq (d : Disk) (folder : String) : readScripts d folder =
    match scriptsAlong? folder (filesBelow d folder) with
    | none => .error (Site.sourceRead.faultAt folder "a script is not text")
    | some scripts =>
      if scripts.size = 0 then .error (.host "CLI_SOURCE_EMPTY" s!"No .dlg files under {folder}")
      else .ok scripts := rfl

theorem scriptsAlong_eq {root : String} {walk scripts : List (List String × ByteArray)}
    (hscripts : (walk.filter fun f => isScript root f.1) = scripts)
    (htext : ∀ f ∈ scripts, (String.fromUTF8? f.2).isSome = true) :
    Replay.scriptsAlong root walk =
      if scripts = [] then .error (.noScripts root) else .ok (scriptMap scripts) := by
  unfold Replay.scriptsAlong
  rw [scriptsAlong?_of_text hscripts htext]
  exact if_congr size_scriptMap_eq_zero rfl rfl

variable (htext : ∀ f ∈ scriptFiles d folder, (String.fromUTF8? f.2).isSome = true)

include htext

/-- What a scenario reads: nothing if there is no script. -/
theorem readScripts_of_text : readScripts d folder =
    if scriptFiles d folder = [] then .error (.host "CLI_SOURCE_EMPTY" s!"No .dlg files under {folder}")
    else .ok (scriptMap (scriptFiles d folder)) := by
  have hmap : scriptsAlong? folder (filesBelow d folder) = some (scriptMap (scriptFiles d folder)) :=
    scriptsAlong?_of_text rfl htext
  rw [readScripts_eq, hmap]
  exact if_congr size_scriptMap_eq_zero rfl rfl

/-- What a test case reads, whatever walk it takes. -/
theorem scriptsAlong_of_text {walk : List (List String × ByteArray)}
    (hwalk : walk.Perm (filesBelow d folder)) : ∃ scripts, scripts.Perm (scriptFiles d folder) ∧
      Replay.scriptsAlong folder walk =
        if scripts = [] then .error (.noScripts folder) else .ok (scriptMap scripts) := by
  have hperm : (walk.filter fun f => isScript folder f.1).Perm (scriptFiles d folder) := hwalk.filter _
  exact ⟨_, hperm, scriptsAlong_eq rfl fun f hf => htext f (hperm.subset hf)⟩

/-- What a test case reads on a disk: the same map, and the state beside it. -/
theorem readScenario_of_text : Replay.readScenario d folder =
    if scriptFiles d folder = [] then .error (.noScripts folder)
    else (Replay.stateBeside d folder).map fun host => (scriptMap (scriptFiles d folder), host) := by
  have halong : Replay.scriptsAlong folder (filesBelow d folder)
      = if scriptFiles d folder = [] then .error (.noScripts folder)
        else .ok (scriptMap (scriptFiles d folder)) := scriptsAlong_eq rfl htext
  rw [Replay.readScenario_eq, halong]
  by_cases hnone : scriptFiles d folder = []
  · rw [if_pos hnone, if_pos hnone]
    rfl
  · rw [if_neg hnone, if_neg hnone]
    rfl

omit htext in
theorem nodup_scriptFiles {entries : List (String × FileTree)}
    (hfolder : d.find? folder = some (.folder entries)) (hproper : (FileTree.folder entries).Proper) :
    ((scriptFiles d folder).map (·.1)).Nodup := by
  unfold scriptFiles
  rw [hfolder]
  exact (FileTree.nodup_files hproper).sublist (List.filter_sublist.map _)

omit htext in
/-- What leads to a script in a folder is read off its path. -/
theorem names_of_mem_scriptFiles {entries : List (String × FileTree)}
    (hfolder : d.find? folder = some (.folder entries)) (hproper : (FileTree.folder entries).Proper)
    {f : List String × ByteArray} (hf : f ∈ scriptFiles d folder) :
    f.1 ≠ [] ∧ ∀ name ∈ f.1, name ≠ "" ∧ '/' ∉ name.toList := by
  unfold scriptFiles at hf
  rw [hfolder] at hf
  have hmem := List.mem_of_mem_filter hf
  refine ⟨?_, FileTree.names_of_mem_files hproper hmem⟩
  obtain ⟨e, -, g, -, rfl⟩ := FileTree.mem_filesOfEntries.mp hmem
  exact List.cons_ne_nil e.1 g.1

omit htext in
theorem keysDiffer_of_no_backslash {entries : List (String × FileTree)}
    (hfolder : d.find? folder = some (.folder entries)) (hproper : (FileTree.folder entries).Proper)
    (hplain : ∀ f ∈ scriptFiles d folder, ∀ name ∈ f.1, '\\' ∉ name.toList) :
    KeysDiffer (scriptFiles d folder) := by
  intro f hf g hg hsame
  obtain ⟨hne, hnames⟩ := names_of_mem_scriptFiles hfolder hproper hf
  obtain ⟨hne', hnames'⟩ := names_of_mem_scriptFiles hfolder hproper hg
  have hpath : f.1 = g.1 :=
    eq_of_sourceKey_eq hnames hne hnames' hne' (hplain f hf) (hplain g hg) hsame
  exact List.inj_on_of_nodup_map (nodup_scriptFiles hfolder hproper) hf hg hpath

/-- **No script is lost just when their keys differ.** In any folder whose scripts are text, the
readers of scenarios and of test cases fail for want of scripts just when there is none. Otherwise a
scenario has all of them just when no two have one key, as they do where no name has a backslash; and
then a test case has the same map, whatever walk it takes. On the walk that a scenario takes it has the
same map in any case, and goes on with the state beside the scripts. -/
theorem no_script_lost_iff {entries : List (String × FileTree)}
    (hfolder : d.find? folder = some (.folder entries)) (hproper : (FileTree.folder entries).Proper) :
    (readScripts d folder = .error (.host "CLI_SOURCE_EMPTY" s!"No .dlg files under {folder}") ↔
      scriptFiles d folder = []) ∧
    (∀ walk, walk.Perm (filesBelow d folder) →
      (Replay.scriptsAlong folder walk = .error (.noScripts folder) ↔ scriptFiles d folder = [])) ∧
    (Replay.readScenario d folder = .error (.noScripts folder) ↔ scriptFiles d folder = []) ∧
    (scriptFiles d folder ≠ [] → ∃ m, readScripts d folder = .ok m ∧
      (HasAll (scriptFiles d folder) m ↔ KeysDiffer (scriptFiles d folder)) ∧
      ((∀ f ∈ scriptFiles d folder, ∀ name ∈ f.1, '\\' ∉ name.toList) →
        HasAll (scriptFiles d folder) m) ∧
      (HasAll (scriptFiles d folder) m → ∀ walk, walk.Perm (filesBelow d folder) →
        Replay.scriptsAlong folder walk = .ok m) ∧
      Replay.readScenario d folder
        = (Replay.stateBeside d folder).map fun host => (m, host)) := by
  have hnames := nodup_scriptFiles hfolder hproper
  have hread := readScripts_of_text htext
  have hcase := readScenario_of_text htext
  refine ⟨?_, fun walk hwalk => ?_, ?_, fun hsome => ?_⟩
  · rw [hread]
    exact refused_iff
  · obtain ⟨scripts, hperm, halong⟩ := scriptsAlong_of_text htext hwalk
    have hnone : scripts = [] ↔ scriptFiles d folder = [] := by
      rw [← List.length_eq_zero_iff, hperm.length_eq, List.length_eq_zero_iff]
    rw [halong, ← hnone]
    exact refused_iff
  · rw [hcase]
    by_cases hnone : scriptFiles d folder = []
    · rw [if_pos hnone]
      exact iff_of_true rfl hnone
    · rw [if_neg hnone]
      refine iff_of_false (fun hrefused => ?_) hnone
      exact Replay.stateBeside_ne_noScripts d folder (map_eq_error.mp hrefused)
  · have hiff := hasAll_scriptMap_iff hnames htext
    refine ⟨scriptMap (scriptFiles d folder), by rw [hread, if_neg hsome], hiff, fun hplain => ?_,
      fun hall walk hwalk => ?_, by rw [hcase, if_neg hsome]⟩
    · exact hiff.mpr (keysDiffer_of_no_backslash hfolder hproper hplain)
    · obtain ⟨scripts, hperm, halong⟩ := scriptsAlong_of_text htext hwalk
      have hsome' : scripts ≠ [] := by
        rintro rfl
        exact hsome hperm.symm.eq_nil
      rw [halong, if_neg hsome', scriptMap_perm hnames hall.differ hperm]

omit htext

/-! ## Two scripts -/

/-- A script in a folder of its own. -/
def innerScript : List String × ByteArray := (["a", "b.dlg"], "(label b (text \"B\"))".toUTF8)

/-- A script with the given name. -/
def outerScript (name : String) : List String × ByteArray :=
  ([name], "(label a (text \"A\")) (start-dialogue a)".toUTF8)

/-- The entries of a folder with the two. -/
def twoScripts (name : String) : List (String × FileTree) :=
  [("a", .folder [("b.dlg", .file innerScript.2)]), (name, .file (outerScript name).2)]

/-- The folder on a disk. -/
def twoScriptsDisk (name : String) : Disk := ⟨.folder [("s", .folder (twoScripts name))], []⟩

theorem find?_twoScriptsDisk (name : String) :
    (twoScriptsDisk name).find? "/s" = some (.folder (twoScripts name)) := rfl

section TwoScripts

variable {name : String}

theorem isText_inner : (String.fromUTF8? innerScript.2).isSome = true := by
  unfold innerScript
  rw [fromUTF8?_toUTF8]
  rfl

theorem isText_outer (name : String) : (String.fromUTF8? (outerScript name).2).isSome = true := by
  unfold outerScript
  rw [fromUTF8?_toUTF8]
  rfl

theorem isScript_two (hname : FilePath.hasEnding ".dlg".toList name.toList = true) :
    ∀ f ∈ [innerScript, outerScript name], isScript "/s" f.1 = true := by
  have hother : FilePath.hasEnding ".dlg".toList "b.dlg".toList = true := by decide
  exact List.forall_mem_cons.mpr ⟨hother, List.forall_mem_singleton.mpr hname⟩

theorem scriptFiles_twoScripts (hname : FilePath.hasEnding ".dlg".toList name.toList = true) :
    scriptFiles (twoScriptsDisk name) "/s" = [innerScript, outerScript name] :=
  List.filter_eq_self.mpr (isScript_two hname)

theorem text_twoScripts (hname : FilePath.hasEnding ".dlg".toList name.toList = true) :
    ∀ f ∈ scriptFiles (twoScriptsDisk name) "/s", (String.fromUTF8? f.2).isSome = true := by
  rw [scriptFiles_twoScripts hname]
  exact List.forall_mem_cons.mpr ⟨isText_inner, List.forall_mem_singleton.mpr (isText_outer name)⟩

theorem proper_twoScripts (hother : name ≠ "a") (hempty : name ≠ "") (hslash : '/' ∉ name.toList) :
    (FileTree.folder (twoScripts name)).Proper := by
  refine .folder ?_ ?_ ?_
  · simpa [twoScripts] using hother.symm
  · exact List.forall_mem_cons.mpr ⟨by decide, List.forall_mem_singleton.mpr ⟨hempty, hslash⟩⟩
  · refine List.forall_mem_cons.mpr ⟨?_, List.forall_mem_singleton.mpr (.file _)⟩
    refine .folder (List.nodup_singleton _) (List.forall_mem_singleton.mpr (by decide)) ?_
    exact List.forall_mem_singleton.mpr (.file _)

end TwoScripts

/-- Two scripts with keys of their own are both in the scenario. -/
theorem no_script_lost_of_two : ∃ m, readScripts (twoScriptsDisk "c.dlg") "/s" = .ok m ∧
    HasAll [innerScript, outerScript "c.dlg"] m := by
  have hfiles : scriptFiles (twoScriptsDisk "c.dlg") "/s" = _ := scriptFiles_twoScripts (by decide)
  obtain ⟨-, -, -, hread⟩ := no_script_lost_iff (text_twoScripts (by decide))
    (find?_twoScriptsDisk "c.dlg") (proper_twoScripts (by decide) (by decide) (by decide))
  rw [hfiles] at hread
  obtain ⟨m, hm, -, hall, -⟩ := hread (by simp)
  exact ⟨m, hm, hall (by decide)⟩

/-- A backslash in a name costs a script: the two have one key, and the map holds the one that the
walk meets last, so a test case that meets them the other way round holds the other one. -/
theorem script_lost_to_backslash :
    (FileTree.folder (twoScripts "a\\b.dlg")).Proper ∧
    scriptFiles (twoScriptsDisk "a\\b.dlg") "/s" = [innerScript, outerScript "a\\b.dlg"] ∧
    (∀ f ∈ scriptFiles (twoScriptsDisk "a\\b.dlg") "/s", (String.fromUTF8? f.2).isSome = true) ∧
    ∃ m, readScripts (twoScriptsDisk "a\\b.dlg") "/s" = .ok m ∧ m.size = 1 ∧
      ¬HasAll [innerScript, outerScript "a\\b.dlg"] m ∧
      ∃ walk m', walk.Perm (filesBelow (twoScriptsDisk "a\\b.dlg") "/s") ∧
        Replay.scriptsAlong "/s" walk = .ok m' ∧ m' ≠ m := by
  have hfiles : scriptFiles (twoScriptsDisk "a\\b.dlg") "/s" = _ := scriptFiles_twoScripts (by decide)
  have htext := text_twoScripts (show FilePath.hasEnding ".dlg".toList "a\\b.dlg".toList = true by decide)
  have hread := readScripts_of_text htext
  rw [hfiles, if_neg (by simp)] at hread
  refine ⟨proper_twoScripts (by decide) (by decide) (by decide), hfiles, htext, _, hread, ?_, ?_, ?_⟩
  · rfl
  · intro hall
    have hsize := hall.size
    cases hsize
  · have hwalk : Replay.scriptsAlong "/s" [outerScript "a\\b.dlg", innerScript]
        = .ok (scriptMap [outerScript "a\\b.dlg", innerScript]) := by
      have hscripts : [outerScript "a\\b.dlg", innerScript].filter (fun f => isScript "/s" f.1) = _ :=
        List.filter_eq_self.mpr fun f hf => isScript_two (by decide) f (List.mem_reverse.mp hf)
      rw [scriptsAlong_eq hscripts fun f hf => htext f (hfiles ▸ List.mem_reverse.mp hf)]
      exact if_neg (by simp)
    refine ⟨_, _, List.Perm.swap _ _ [], hwalk, fun hsame => ?_⟩
    -- each map holds the later script of its walk
    have hinner : (scriptMap [outerScript "a\\b.dlg", innerScript]).find? "a/b.dlg"
        = some (scriptText innerScript) :=
      find?_scriptMap.mpr ⟨[outerScript "a\\b.dlg"], innerScript, [], rfl, rfl, rfl, by simp⟩
    have houter : (scriptMap [innerScript, outerScript "a\\b.dlg"]).find? "a/b.dlg"
        = some (scriptText (outerScript "a\\b.dlg")) :=
      find?_scriptMap.mpr ⟨[innerScript], outerScript "a\\b.dlg", [], rfl, rfl, rfl, by simp⟩
    rw [hsame, houter] at hinner
    unfold scriptText innerScript outerScript at hinner
    rw [fromUTF8?_toUTF8, fromUTF8?_toUTF8] at hinner
    exact absurd (Option.some.inj hinner) (by decide)

end Scenario

end Colloquy
