import Colloquy.Dialogue.Program
import Colloquy.Proofs.Action

/-!
# What compiled dialogues are like

A program is compiled by folding over its forms, so what the empty program has and every form keeps
is true of every compiled dialogue (`foldlM_induction`). Main statement,
`compileForms_filedByName`: a compiled dialogue files every label under the label's own name. A
program that is built strictly is the one that is built leniently (`Program.ofForms_lenient`).
-/

namespace Colloquy

/-- What holds at the start and is kept by every step that succeeds holds at the end. -/
theorem foldlM_induction {ε α β : Type} {f : β → α → Except ε β} {P : β → Prop}
    (step : ∀ {b a b'}, P b → f b a = .ok b' → P b') :
    ∀ {items : List α} {b b' : β}, P b → items.foldlM f b = .ok b' → P b'
  | [], b, b', hb, h => by
    obtain rfl : b = b' := Except.ok.inj h
    exact hb
  | a :: items, b, b', hb, h => by
    rw [List.foldlM_cons] at h
    obtain ⟨next, hstep, hrest⟩ := bind_eq_ok.mp h
    exact foldlM_induction step (step hb hstep) hrest

/-- Every label is filed under its own name. -/
def NameMap.FiledByName (labels : NameMap Label) : Prop :=
  ∀ name label, labels.find? name = some label → label.name = name

theorem filedByName_empty : NameMap.FiledByName .empty := by
  intro name label h
  rw [NameMap.find?_empty] at h
  cases h

theorem NameMap.FiledByName.insert {labels : NameMap Label} (h : labels.FiledByName)
    (label : Label) : (labels.insert label.name label).FiledByName := by
  intro name other hfind
  rw [find?_insert] at hfind
  by_cases hname : name = label.name
  · rw [if_pos hname] at hfind
    obtain rfl : label = other := Option.some.inj hfind
    exact hname.symm
  · rw [if_neg hname] at hfind
    exact h name other hfind

/-- A form declares a label under its name, or leaves the labels alone. -/
theorem ProgramDraft.labels_add {draft draft' : ProgramDraft} {form : Expr}
    (h : draft.add form = .ok draft') :
    draft'.labels = draft.labels ∨
      ∃ label : Label, draft'.labels = draft.labels.insert label.name label := by
  unfold ProgramDraft.add at h
  split at h
  · split at h
    · obtain ⟨label, -, hadd⟩ := bind_eq_ok.mp h
      split at hadd
      · cases hadd
      · cases hadd
        exact Or.inr ⟨label, rfl⟩
    · obtain ⟨name, -, hadd⟩ := bind_eq_ok.mp h
      split at hadd
      · cases hadd
      · cases hadd
        exact Or.inl rfl
    · cases h
  · cases h

theorem ProgramDraft.filedByName_add {draft draft' : ProgramDraft} {form : Expr}
    (hfiled : draft.labels.FiledByName) (h : draft.add form = .ok draft') :
    draft'.labels.FiledByName := by
  rcases labels_add h with hlabels | ⟨label, hlabels⟩
  · rw [hlabels]
    exact hfiled
  · rw [hlabels]
    exact hfiled.insert label

/-- A compiled dialogue files every label under its own name. -/
theorem compileForms_filedByName {forms : List Expr} {d : Dialogue}
    (h : compileForms forms = .ok d) : d.labels.FiledByName := by
  unfold compileForms at h
  obtain ⟨draft, hdraft, hinitial⟩ := bind_eq_ok.mp h
  have hfiled : draft.labels.FiledByName :=
    foldlM_induction ProgramDraft.filedByName_add filedByName_empty hdraft
  split at hinitial
  · cases hinitial
  · split at hinitial
    · cases hinitial
      exact hfiled
    · cases hinitial

/-! ## Programs -/

namespace Program

/-- What is built strictly is what is built leniently. -/
theorem ofForms_lenient {strict : Bool} {forms : List Expr} {program : Program}
    (h : ofForms strict forms = .ok program) : ofForms false forms = .ok program := by
  cases strict with
  | false => exact h
  | true =>
    obtain ⟨dialogue, hdialogue, hchecked⟩ := bind_eq_ok.mp h
    obtain ⟨-, hend⟩ := check_bind_eq_ok.mp hchecked
    exact bind_eq_ok.mpr ⟨dialogue, hdialogue, hend⟩

theorem compileForms_of_ofForms {strict : Bool} {forms : List Expr} {program : Program}
    (h : ofForms strict forms = .ok program) : compileForms forms = .ok program.dialogue := by
  obtain ⟨dialogue, hdialogue, hend⟩ := bind_eq_ok.mp (ofForms_lenient h)
  cases hend
  exact hdialogue

/-- A program from files is built from the forms of them all. -/
theorem ofSources_eq_ok {strict : Bool} {sources : NameMap String} {program : Program} :
    ofSources strict sources = .ok program ↔
      ∃ forms, sources.entries.mapM formsOfFile = .ok forms ∧
        ofForms strict forms.flatten = .ok program := by
  unfold ofSources
  rw [bind_eq_ok]
  exact exists_congr fun forms => and_congr_right fun _ => mapError_eq_ok

/-- Every file can be read, and together they have the given forms, in the order of the paths. -/
def Reads (sources : NameMap String) (forms : List Expr) : Prop :=
  ∃ files, List.Forall₂ (fun file read => readSource file.2 = .ok read) sources.entries files ∧
    files.flatten = forms

/-- A program from files that can be read is the program of their forms. -/
theorem Reads.ofSources {sources : NameMap String} {forms : List Expr} (h : Reads sources forms)
    (strict : Bool) : ofSources strict sources = (ofForms strict forms).mapError .grammar := by
  obtain ⟨files, hfiles, rfl⟩ := h
  have hread : sources.entries.mapM formsOfFile = .ok files := by
    rw [mapM_eq_ok]
    exact hfiles.imp fun _ _ => mapError_eq_ok.mpr
  unfold Program.ofSources
  rw [hread]
  rfl

theorem ofSources_lenient {strict : Bool} {sources : NameMap String} {program : Program}
    (h : ofSources strict sources = .ok program) : ofSources false sources = .ok program := by
  obtain ⟨forms, hforms, hprogram⟩ := ofSources_eq_ok.mp h
  exact ofSources_eq_ok.mpr ⟨forms, hforms, ofForms_lenient hprogram⟩

theorem filedByName_of_ofSources {strict : Bool} {sources : NameMap String} {program : Program}
    (h : ofSources strict sources = .ok program) : program.dialogue.labels.FiledByName := by
  obtain ⟨forms, -, hprogram⟩ := ofSources_eq_ok.mp h
  exact compileForms_filedByName (compileForms_of_ofForms hprogram)

end Program

end Colloquy
