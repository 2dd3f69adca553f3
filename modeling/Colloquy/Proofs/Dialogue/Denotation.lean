import Colloquy.Proofs.Dialogue.Grammar
import Colloquy.Proofs.Dialogue.Labels
import Mathlib.Data.List.Induction

/-!
# The dialogue that a program denotes

A program has a *part* for each of its forms, a label or the name of a first label. It is in the
grammar (`IsProgram`) when it names one first label, no two labels share a name, and the first label
is among them. It denotes a dialogue (`Denotes`) that starts there and finds exactly the declared
labels, each under its own name.

As for the forms of a label, the compiler reads the forms over a draft that holds the parts read so
far, so a run over them succeeds exactly when they have parts that a draft can hold
(`HoldsParts.foldlM_eq_ok`). Main statement, `Program.built_iff_denoted`: built leniently, a
program gives the dialogue that it denotes, and is refused when it is not in the grammar.
-/

namespace Colloquy

/-! ## Labels filed under their names -/

/-- The map finds exactly the listed labels, each under its own name, and they have different
names. -/
structure NameMap.Files (m : NameMap Label) (labels : List Label) : Prop where
  distinct : (labels.map (·.name)).Nodup
  finds : ∀ name label, m.find? name = some label ↔ label ∈ labels ∧ label.name = name

namespace NameMap.Files

variable {m m' : NameMap Label} {labels : List Label}

theorem empty : Files .empty [] := ⟨List.nodup_nil, by simp⟩

theorem unique (h : m.Files labels) (h' : m'.Files labels) : m = m' := by
  refine ext_find? fun name => Option.ext fun label => ?_
  rw [h.finds, h'.finds]

theorem contains_iff (h : m.Files labels) {name : String} :
    m.contains name = true ↔ ∃ label ∈ labels, label.name = name := by
  simp only [contains, Option.isSome_iff_exists, h.finds]

/-- Names stay distinct with one more label if its name is new. -/
theorem distinct_concat_iff (h : m.Files labels) (label : Label) :
    ((labels ++ [label]).map (·.name)).Nodup ↔ m.contains label.name = false := by
  rw [List.map_append, List.nodup_append, ← Bool.not_eq_true, h.contains_iff]
  simp [h.distinct]

theorem insert (h : m.Files labels) {label : Label} (hnew : m.contains label.name = false) :
    (m.insert label.name label).Files (labels ++ [label]) := by
  refine ⟨(h.distinct_concat_iff label).mpr hnew, ?_⟩
  intro name other
  have habsent : ¬ ∃ other ∈ labels, other.name = label.name := by
    rw [← h.contains_iff, hnew]
    simp
  rw [find?_insert, List.mem_append, List.mem_singleton]
  by_cases hname : name = label.name
  · rw [if_pos hname]
    constructor
    · intro hlabel
      obtain rfl : label = other := Option.some.inj hlabel
      exact ⟨.inr rfl, hname.symm⟩
    · rintro ⟨hmem | rfl, hother⟩
      · exact absurd ⟨other, hmem, hother.trans hname⟩ habsent
      · rfl
  · rw [if_neg hname, h.finds]
    constructor
    · rintro ⟨hmem, hother⟩
      exact ⟨.inl hmem, hother⟩
    · rintro ⟨hmem | rfl, hother⟩
      · exact ⟨hmem, hother⟩
      · exact absurd hother.symm hname

end NameMap.Files

/-- Labels with different names can be filed. -/
theorem NameMap.exists_files {labels : List Label} (h : (labels.map (·.name)).Nodup) :
    ∃ m : NameMap Label, m.Files labels := by
  induction labels using List.reverseRecOn with
  | nil => exact ⟨.empty, .empty⟩
  | append_singleton labels label ih =>
    have hbefore : (labels.map (·.name)).Nodup := by
      rw [List.map_append] at h
      exact (List.nodup_append.mp h).1
    obtain ⟨m, hm⟩ := ih hbefore
    exact ⟨m.insert label.name label, hm.insert ((hm.distinct_concat_iff label).mp h)⟩

/-! ## Programs -/

/-- What one form of a program declares. -/
inductive ProgramPart
  | label (label : Label)
  | start (name : String)

namespace ProgramPart

/-- The label that a part declares. -/
def label? : ProgramPart → Option Label
  | .label declared => some declared
  | _ => none

/-- The first label that a part names. -/
def start? : ProgramPart → Option String
  | .start name => some name
  | _ => none

end ProgramPart

/-- A form of a program, with what it declares. -/
inductive IsProgramPart : Expr → ProgramPart → Prop
  | label {form : Expr} {label : Label} (h : IsLabel form label) : IsProgramPart form (.label label)
  | start (name : String) :
    IsProgramPart (.list [.symbol "start-dialogue", .symbol name]) (.start name)

/-- The parts of a program: exactly one start form, labels of different names, and the first label
among them. -/
structure IsProgram (forms : List Expr) (parts : List ProgramPart) (initial : String) : Prop where
  forms : List.Forall₂ IsProgramPart forms parts
  start : parts.filterMap ProgramPart.start? = [initial]
  distinct : ((parts.filterMap ProgramPart.label?).map (·.name)).Nodup
  declared : ∃ label ∈ parts.filterMap ProgramPart.label?, label.name = initial

/-- The dialogue that a program stands for: it starts at the first label and finds the declared
labels under their names, and nothing else. -/
def Denotes (forms : List Expr) (d : Dialogue) : Prop :=
  ∃ parts, IsProgram forms parts d.initial ∧
    ∀ name label, d.label? name = some label ↔
      label ∈ parts.filterMap ProgramPart.label? ∧ label.name = name

namespace ProgramDraft

/-- What one part does to a draft. -/
inductive Takes (draft : ProgramDraft) : ProgramPart → ProgramDraft → Prop
  | label (label : Label) (hnew : draft.labels.contains label.name = false) :
    Takes draft (.label label) { draft with labels := draft.labels.insert label.name label }
  | start (hnew : draft.initial = none) (name : String) :
    Takes draft (.start name) { draft with initial := some name }

theorem compileStart_eq_ok {name : String} {items : List Expr} :
    compileStart items = .ok name ↔ items = [.symbol name] := by
  constructor
  · intro h
    unfold compileStart at h
    split at h
    · cases h
      rfl
    · cases h
  · rintro rfl
    rfl

/-- A draft takes a form when the form is one of the grammar and the draft takes its part. -/
theorem add_eq_ok {draft draft' : ProgramDraft} {form : Expr} :
    draft.add form = .ok draft' ↔ ∃ part, IsProgramPart form part ∧ draft.Takes part draft' := by
  constructor
  · intro h
    unfold add at h
    split at h
    · next items =>
      split at h
      · next hhead =>
        obtain ⟨rest, hitems⟩ := head?_eq_some.mp hhead
        cases hitems
        obtain ⟨label, hlabel, h⟩ := bind_eq_ok.mp h
        split at h
        · cases h
        · next hnew =>
          cases h
          rw [Bool.not_eq_true] at hnew
          exact ⟨_, .label (compileLabel_eq_ok.mp hlabel), .label label hnew⟩
      · next hhead =>
        obtain ⟨rest, hitems⟩ := head?_eq_some.mp hhead
        cases hitems
        obtain ⟨name, hname, h⟩ := bind_eq_ok.mp h
        obtain rfl := compileStart_eq_ok.mp hname
        split at h
        · cases h
        · next hnew =>
          cases h
          exact ⟨_, .start name, .start hnew name⟩
      · cases h
    · cases h
  · rintro ⟨part, hform, htakes⟩
    cases hform with
    | label hlabel =>
      have hcompiled := hlabel
      cases hlabel with
      | label =>
        cases htakes with
        | label _ hnew =>
          refine bind_eq_ok.mpr ⟨_, compileLabel_eq_ok.mpr hcompiled, ?_⟩
          exact if_neg (by rw [hnew]; simp)
    | start name =>
      cases htakes with
      | start hnew =>
        refine bind_eq_ok.mpr ⟨name, compileStart_eq_ok.mpr rfl, ?_⟩
        rw [hnew]

/-- A draft holds the parts of a program when it has just what they declare. -/
structure Holds (draft : ProgramDraft) (parts : List ProgramPart) : Prop where
  labels : draft.labels.Files (parts.filterMap ProgramPart.label?)
  initial : draft.initial.toList = parts.filterMap ProgramPart.start?

theorem holds_nil : Holds ⟨.empty, none⟩ [] := ⟨.empty, rfl⟩

theorem Holds.unique {draft draft' : ProgramDraft} {parts : List ProgramPart}
    (h : draft.Holds parts) (h' : draft'.Holds parts) : draft = draft' := by
  obtain ⟨labels, initial⟩ := draft
  obtain ⟨labels', initial'⟩ := draft'
  obtain rfl : labels = labels' := h.labels.unique h'.labels
  obtain rfl : initial = initial' := option_eq_of_toList_eq (h.initial.trans h'.initial.symm)
  rfl

/-- Some draft holds the first of the parts that a draft holds. -/
theorem Holds.before {draft : ProgramDraft} {seen more : List ProgramPart}
    (h : draft.Holds (seen ++ more)) : ∃ draft' : ProgramDraft, draft'.Holds seen := by
  obtain ⟨⟨hdistinct, -⟩, hinitial⟩ := h
  rw [List.filterMap_append, List.map_append] at hdistinct
  rw [List.filterMap_append] at hinitial
  obtain ⟨labels, hlabels⟩ := NameMap.exists_files (List.nodup_append.mp hdistinct).1
  obtain ⟨initial, hinitial⟩ := exists_toList_eq hinitial
  exact ⟨⟨labels, initial⟩, hlabels, hinitial⟩

theorem holds_concat {draft : ProgramDraft} {seen : List ProgramPart} {part : ProgramPart} :
    draft.Holds (seen ++ [part]) ↔
      draft.labels.Files (seen.filterMap ProgramPart.label? ++ part.label?.toList) ∧
      draft.initial.toList = seen.filterMap ProgramPart.start? ++ part.start?.toList := by
  simp only [← filterMap_concat]
  exact ⟨fun ⟨labels, initial⟩ => ⟨labels, initial⟩, fun ⟨labels, initial⟩ => ⟨labels, initial⟩⟩

/-- What a part does to a draft is to have it held after the others. -/
theorem Holds.takes_iff {draft draft' : ProgramDraft} {seen : List ProgramPart}
    {part : ProgramPart} (h : draft.Holds seen) :
    draft.Takes part draft' ↔ draft'.Holds (seen ++ [part]) := by
  rw [holds_concat]
  constructor
  · intro htakes
    cases htakes with
    | label label hnew => exact ⟨h.labels.insert hnew, h.initial.trans (List.append_nil _).symm⟩
    | start hnew name =>
      refine ⟨?_, ?_⟩
      · show draft.labels.Files (_ ++ [])
        rw [List.append_nil]
        exact h.labels
      · rw [← h.initial, hnew]
        rfl
  · rintro ⟨hlabels, hinitial⟩
    obtain ⟨labels, initial⟩ := draft'
    cases part with
    | label label =>
      -- that its name is new is part of what the map that files it says
      have hnew := (h.labels.distinct_concat_iff label).mp hlabels.distinct
      obtain rfl := hlabels.unique (h.labels.insert hnew)
      obtain rfl := option_eq_of_toList_eq ((hinitial.trans (List.append_nil _)).trans h.initial.symm)
      exact .label label hnew
    | start name =>
      rw [show (ProgramPart.start name).label?.toList = [] from rfl, List.append_nil] at hlabels
      obtain rfl := hlabels.unique h.labels
      obtain ⟨hnone, rfl⟩ := toList_eq_concat.mp hinitial
      rw [← h.initial] at hnone
      exact .start (Option.toList_eq_nil_iff.mp hnone) name

theorem holdsParts : HoldsParts add IsProgramPart Holds where
  step hseen := by
    rw [add_eq_ok]
    exact exists_congr fun part => and_congr_right fun _ => hseen.takes_iff
  unique := Holds.unique
  before := Holds.before

end ProgramDraft

/-- The compiler accepts the programs that denote a dialogue, and gives that dialogue. -/
theorem compileForms_eq_ok {forms : List Expr} {d : Dialogue} :
    compileForms forms = .ok d ↔ Denotes forms d := by
  unfold compileForms
  rw [bind_eq_ok]
  constructor
  · rintro ⟨draft, hdraft, h⟩
    obtain ⟨parts, hparts, hheld⟩ :=
      (ProgramDraft.holdsParts.foldlM_eq_ok ProgramDraft.holds_nil).mp hdraft
    split at h
    · cases h
    · next initial hinitial =>
      split at h
      · next hdeclared =>
        cases h
        have hstart : parts.filterMap ProgramPart.start? = [initial] := by
          rw [← hheld.initial, hinitial]
          rfl
        have hfirst := hheld.labels.contains_iff.mp hdeclared
        exact ⟨parts, ⟨hparts, hstart, hheld.labels.distinct, hfirst⟩, hheld.labels.finds⟩
      · cases h
  · rintro ⟨parts, hprogram, hfinds⟩
    have hfiles : d.labels.Files (parts.filterMap ProgramPart.label?) := ⟨hprogram.distinct, hfinds⟩
    have hheld : ProgramDraft.Holds ⟨d.labels, some d.initial⟩ parts :=
      ⟨hfiles, hprogram.start.symm⟩
    have hrun := (ProgramDraft.holdsParts.foldlM_eq_ok ProgramDraft.holds_nil).mpr
      ⟨parts, hprogram.forms, hheld⟩
    refine ⟨_, hrun, ?_⟩
    exact if_pos (hfiles.contains_iff.mpr hprogram.declared)

/-- Every program of the grammar denotes a dialogue. -/
theorem IsProgram.exists_denoted {forms : List Expr} {parts : List ProgramPart} {initial : String}
    (h : IsProgram forms parts initial) : ∃ d, Denotes forms d := by
  obtain ⟨labels, hlabels⟩ := NameMap.exists_files h.distinct
  exact ⟨⟨initial, labels⟩, parts, h, hlabels.finds⟩

namespace Program

/-- What is built leniently is the compiled dialogue with the remarks on it. -/
theorem ofForms_lenient_eq_ok {forms : List Expr} {program : Program} :
    ofForms false forms = .ok program ↔ compileForms forms = .ok program.dialogue ∧
      program.diagnostics = program.dialogue.diagnostics := by
  obtain ⟨dialogue, diagnostics⟩ := program
  unfold ofForms
  rw [bind_eq_ok]
  constructor
  · rintro ⟨compiled, hcompiled, h⟩
    cases h
    exact ⟨hcompiled, rfl⟩
  · rintro ⟨hcompiled, hremarks⟩
    obtain rfl : diagnostics = dialogue.diagnostics := hremarks
    exact ⟨dialogue, hcompiled, rfl⟩

/-- Built leniently, a list of forms gives a program exactly when it is in the grammar, and the
program is the dialogue that the forms denote with the remarks on it. -/
theorem built_iff_denoted (forms : List Expr) :
    ((∃ program, ofForms false forms = .ok program) ↔ ∃ parts initial, IsProgram forms parts initial) ∧
    ∀ program, ofForms false forms = .ok program ↔
      Denotes forms program.dialogue ∧ program.diagnostics = program.dialogue.diagnostics := by
  have hbuilt : ∀ program, ofForms false forms = .ok program ↔
      Denotes forms program.dialogue ∧ program.diagnostics = program.dialogue.diagnostics := by
    intro program
    rw [ofForms_lenient_eq_ok, compileForms_eq_ok]
  refine ⟨?_, hbuilt⟩
  constructor
  · rintro ⟨program, h⟩
    obtain ⟨⟨parts, hprogram, -⟩, -⟩ := (hbuilt program).mp h
    exact ⟨parts, _, hprogram⟩
  · rintro ⟨parts, initial, hprogram⟩
    obtain ⟨d, hd⟩ := hprogram.exists_denoted
    exact ⟨⟨d, d.diagnostics⟩, (hbuilt _).mpr ⟨hd, rfl⟩⟩

end Program

end Colloquy
