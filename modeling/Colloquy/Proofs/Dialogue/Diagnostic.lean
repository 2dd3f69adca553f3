import Colloquy.Proofs.Dialogue.Grammar
import Colloquy.Proofs.NameMap

/-!
# Remarks and the strict check

The remarks on a dialogue are, label by label in the order of the names, one on an after block beside
choices and then one on each target that is not declared (`Remarked`). The strict check walks through
the same targets and stops at the first of these: what it comes to can be read off the list of
remarks (`checkTargets_eq`).

Main statement, `strict_check_reads_remarks`: that, the exact list, and what follows for programs,
however they are built. Strict building gives a program just when lenient building gives it without a
remark on a dangling target.
-/

namespace Colloquy

namespace Diagnostic

/-- Whether a remark is on a target that is not declared. -/
def IsDangling (remark : Diagnostic) : Prop := ∃ target, remark.kind = .danglingTarget target

/-- The label and the target of a remark on a dangling target. -/
def dangling? (remark : Diagnostic) : Option (String × String) :=
  match remark.kind with
  | .danglingTarget target => some (remark.label, target)
  | .unreachableAfter => none

theorem dangling?_eq_some {remark : Diagnostic} {label target : String} :
    remark.dangling? = some (label, target) ↔ remark.label = label ∧ remark.kind = .danglingTarget target := by
  unfold dangling?
  cases remark.kind <;> simp

theorem dangling?_eq_none {remark : Diagnostic} : remark.dangling? = none ↔ ¬ remark.IsDangling := by
  unfold dangling? IsDangling
  cases remark.kind <;> simp

/-! ## The list of remarks -/

/-- The remarks on targets that a label leads to, one after another: one for each that is not the name
of a declared label. -/
inductive OnTargets (d : Dialogue) (label : String) : List String → List Diagnostic → Prop
  | nil : OnTargets d label [] []
  | declared {target : String} {targets : List String} {remarks : List Diagnostic}
      (h : target ∈ d.labels.names) (rest : OnTargets d label targets remarks) :
      OnTargets d label (target :: targets) remarks
  | undeclared {target : String} {targets : List String} {remarks : List Diagnostic}
      (h : target ∉ d.labels.names) (rest : OnTargets d label targets remarks) :
      OnTargets d label (target :: targets) (danglingTarget label target :: remarks)

/-- The remarks on a label: on its after block if there are choices beside it, and then on the targets
of the choices and on the one of the after block. -/
inductive Remarked (d : Dialogue) (label : Label) : List Diagnostic → Prop
  | plain (hchoices : label.choices = none) (hafter : label.after = none) : Remarked d label []
  | choices {choices : List Choice} {remarks : List Diagnostic} (hchoices : label.choices = some choices)
      (hafter : label.after = none) (h : OnTargets d label.name (choices.map (·.target)) remarks) :
      Remarked d label remarks
  | after {after : After} {remarks : List Diagnostic} (hchoices : label.choices = none)
      (hafter : label.after = some after) (h : OnTargets d label.name after.target.toList remarks) :
      Remarked d label remarks
  | both {choices : List Choice} {after : After} {remarks : List Diagnostic}
      (hchoices : label.choices = some choices) (hafter : label.after = some after)
      (h : OnTargets d label.name (choices.map (·.target) ++ after.target.toList) remarks) :
      Remarked d label (unreachableAfter label.name :: remarks)

variable (d : Dialogue)

theorem onTargets_filter (label : String) : ∀ targets : List String, OnTargets d label targets
    ((targets.filter fun target => !d.labels.contains target).map (danglingTarget label))
  | [] => .nil
  | target :: targets => by
    have hrest := onTargets_filter label targets
    by_cases hdeclared : d.labels.contains target = true
    · rw [List.filter_cons_of_neg (by simp [hdeclared])]
      exact .declared (NameMap.mem_names_iff.mpr hdeclared) hrest
    · rw [List.filter_cons_of_pos (by simp [hdeclared])]
      exact .undeclared (fun hmem => hdeclared (NameMap.mem_names_iff.mp hmem)) hrest

theorem remarked_ofLabel (label : Label) : Remarked d label (ofLabel d label) := by
  have htargets := onTargets_filter d label.name label.targets
  unfold ofLabel
  unfold Label.targets at htargets ⊢
  cases hchoices : label.choices with
  | none =>
    rw [hchoices] at htargets
    cases hafter : label.after with
    | none => exact .plain hchoices hafter
    | some after =>
      rw [hafter] at htargets
      exact .after hchoices hafter htargets
  | some choices =>
    rw [hchoices] at htargets
    cases hafter : label.after with
    | none =>
      rw [hafter] at htargets
      exact .choices hchoices hafter (by simpa using htargets)
    | some after =>
      rw [hafter] at htargets
      exact .both hchoices hafter htargets

/-- The remarks on a dialogue are those on its labels, in the order of their names. -/
theorem remarked_diagnostics : ∃ blocks, d.diagnostics = blocks.flatten ∧
    List.Forall₂ (fun filed remarks => Remarked d filed.2 remarks) d.labels.entries blocks := by
  refine ⟨d.labelList.map (ofLabel d), ?_, ?_⟩
  · rw [← List.flatMap_def]
    rfl
  · unfold Dialogue.labelList
    rw [List.map_map, List.forall₂_map_right_iff]
    exact List.forall₂_same.mpr fun filed _ => remarked_ofLabel d filed.2

/-! ## The strict check -/

/-- What a check comes to that stops at a target that is not declared, if there is one. -/
def verdict : Option (String × String) → Except GrammarFault Unit
  | none => .ok ()
  | some (label, target) => .error (.undeclaredTarget label target)

theorem verdict_or (a b : Option (String × String)) :
    verdict (a.or b) = (do verdict a; verdict b) := by
  cases a <;> rfl

/-- The check of one label stops at the first target that there is a remark on. -/
theorem check_label (label : Label) : (label.targets.forM fun target =>
      if d.labels.contains target then .ok () else .error (.undeclaredTarget label.name target))
    = verdict ((ofLabel d label).findSome? dangling?) := by
  have hdead : (if label.choices.isSome ∧ label.after.isSome then [unreachableAfter label.name]
      else []).findSome? dangling? = none := by
    split <;> rfl
  unfold ofLabel
  rw [List.findSome?_append, hdead, Option.none_or]
  induction label.targets with
  | nil => rfl
  | cons target targets ih =>
    show ((if d.labels.contains target then .ok () else .error (.undeclaredTarget label.name target)
      : Except GrammarFault Unit) >>= fun _ => targets.forM _) = _
    by_cases hdeclared : d.labels.contains target = true
    · rw [if_pos hdeclared, List.filter_cons_of_neg (by simp [hdeclared]), ← ih]
      rfl
    · rw [if_neg hdeclared, List.filter_cons_of_pos (by simp [hdeclared])]
      rfl

end Diagnostic

open Diagnostic

/-- The strict check comes to what the first remark on a dangling target says. -/
theorem Dialogue.checkTargets_eq (d : Dialogue) :
    d.checkTargets = verdict (d.diagnostics.findSome? dangling?) := by
  unfold checkTargets diagnostics
  induction d.labelList with
  | nil => rfl
  | cons label labels ih =>
    rw [List.flatMap_cons, List.findSome?_append, verdict_or, ← check_label, ← ih]
    rfl

theorem Dialogue.checkTargets_eq_ok_iff (d : Dialogue) :
    d.checkTargets = .ok () ↔ ∀ remark ∈ d.diagnostics, ¬ remark.IsDangling := by
  rw [checkTargets_eq]
  constructor
  · intro h remark hremark
    cases hfirst : d.diagnostics.findSome? dangling? with
    | none => exact dangling?_eq_none.mp (List.findSome?_eq_none_iff.mp hfirst remark hremark)
    | some edge =>
      rw [hfirst] at h
      cases h
  · intro h
    have hnone : d.diagnostics.findSome? dangling? = none :=
      List.findSome?_eq_none_iff.mpr fun remark hremark => dangling?_eq_none.mpr (h remark hremark)
    rw [hnone]
    rfl

theorem Dialogue.checkTargets_eq_error_iff (d : Dialogue) (fault : GrammarFault) :
    d.checkTargets = .error fault ↔ ∃ before remark after target,
      d.diagnostics = before ++ remark :: after ∧ (∀ other ∈ before, ¬ other.IsDangling) ∧
        remark.kind = .danglingTarget target ∧ fault = .undeclaredTarget remark.label target := by
  rw [checkTargets_eq]
  constructor
  · intro h
    cases hfirst : d.diagnostics.findSome? dangling? with
    | none =>
      rw [hfirst] at h
      cases h
    | some edge =>
      obtain ⟨label, target⟩ := edge
      rw [hfirst] at h
      cases h
      obtain ⟨before, remark, after, hremarks, hremark, hbefore⟩ := List.findSome?_eq_some_iff.mp hfirst
      obtain ⟨rfl, hkind⟩ := dangling?_eq_some.mp hremark
      exact ⟨before, remark, after, target, hremarks,
        fun other hother => dangling?_eq_none.mp (hbefore other hother), hkind, rfl⟩
  · intro h
    obtain ⟨before, remark, after, target, hremarks, hbefore, hkind, rfl⟩ := h
    have hfirst : d.diagnostics.findSome? dangling? = some (remark.label, target) :=
      List.findSome?_eq_some_iff.mpr ⟨before, remark, after, hremarks,
        dangling?_eq_some.mpr ⟨rfl, hkind⟩, fun other hother => dangling?_eq_none.mpr (hbefore other hother)⟩
    rw [hfirst]
    rfl

/-! ## Programs -/

namespace Program

variable {ε : Type}

/-- Whether the one way to build gives the programs that the other gives, as long as no remark is on a
dangling target. -/
def StrictOf (strict lenient : Except ε Program) : Prop :=
  ∀ program, strict = .ok program ↔
    lenient = .ok program ∧ ∀ remark ∈ program.diagnostics, ¬ remark.IsDangling

theorem StrictOf.mapError {ε' : Type} {strict lenient : Except ε Program} (h : StrictOf strict lenient)
    (f : ε → ε') : StrictOf (strict.mapError f) (lenient.mapError f) := by
  intro program
  rw [mapError_eq_ok, mapError_eq_ok]
  exact h program

theorem StrictOf.bind {α : Type} {strict lenient : α → Except ε Program}
    (h : ∀ value, StrictOf (strict value) (lenient value)) (r : Except ε α) :
    StrictOf (r >>= strict) (r >>= lenient) := by
  intro program
  rw [bind_eq_ok, bind_eq_ok]
  constructor
  · intro hstrict
    obtain ⟨value, hvalue, hbuilt⟩ := hstrict
    obtain ⟨hlenient, hremarks⟩ := (h value program).mp hbuilt
    exact ⟨⟨value, hvalue, hlenient⟩, hremarks⟩
  · intro hlenient
    obtain ⟨⟨value, hvalue, hbuilt⟩, hremarks⟩ := hlenient
    exact ⟨value, hvalue, (h value program).mpr ⟨hbuilt, hremarks⟩⟩

theorem strictOf_ofForms (forms : List Expr) : StrictOf (ofForms true forms) (ofForms false forms) := by
  refine StrictOf.bind (fun dialogue => ?_) (compileForms forms)
  intro program
  show (dialogue.checkTargets >>= fun _ => _) = Except.ok program ↔ _
  rw [check_bind_eq_ok, Dialogue.checkTargets_eq_ok_iff]
  constructor
  · intro h
    obtain ⟨hremarks, hprogram⟩ := h
    cases hprogram
    exact ⟨rfl, hremarks⟩
  · intro h
    obtain ⟨hprogram, hremarks⟩ := h
    cases hprogram
    exact ⟨hremarks, rfl⟩

end Program

open Program (StrictOf ofForms ofSource ofSources)

/-- **The strict check and the remarks are one judgement.** The check of a dialogue passes just when no
remark is on a dangling target, and otherwise names the label and the target of the first that is. The
remarks are, in the order of the names, those on each label. So a program is built strictly just when
it is built leniently without a remark on a dangling target, and is the same program with the same
remarks, be it built from forms, from one text or from files. -/
theorem strict_check_reads_remarks :
    (∀ d : Dialogue,
      (d.checkTargets = .ok () ↔ ∀ remark ∈ d.diagnostics, ¬ remark.IsDangling) ∧
      (∀ fault, d.checkTargets = .error fault ↔ ∃ before remark after target,
        d.diagnostics = before ++ remark :: after ∧ (∀ other ∈ before, ¬ other.IsDangling) ∧
          remark.kind = .danglingTarget target ∧ fault = .undeclaredTarget remark.label target) ∧
      ∃ blocks, d.diagnostics = blocks.flatten ∧
        List.Forall₂ (fun filed remarks => Remarked d filed.2 remarks) d.labels.entries blocks) ∧
    (∀ forms, StrictOf (ofForms true forms) (ofForms false forms)) ∧
    (∀ source, StrictOf (ofSource true source) (ofSource false source)) ∧
    ∀ sources, StrictOf (ofSources true sources) (ofSources false sources) := by
  refine ⟨fun d => ⟨d.checkTargets_eq_ok_iff, d.checkTargets_eq_error_iff, remarked_diagnostics d⟩,
    Program.strictOf_ofForms, fun source => ?_, fun sources => ?_⟩
  · refine StrictOf.bind (fun forms => ?_) ((readSource source).mapError Fault.reading)
    exact (Program.strictOf_ofForms forms).mapError Fault.grammar
  · refine StrictOf.bind (fun forms => ?_) (sources.entries.mapM Program.formsOfFile)
    exact (Program.strictOf_ofForms forms.flatten).mapError Fault.grammar

/-- Targets come in the order of declaration, and as often as they are declared. -/
example :
    let hall : Label := ⟨"hall", "", some [⟨"", "cellar", none⟩, ⟨"", "hall", none⟩, ⟨"", "cellar", none⟩],
      some ⟨[], some "attic"⟩⟩
    let d : Dialogue := ⟨"hall", .ofList [("hall", hall)]⟩
    d.diagnostics = [unreachableAfter "hall", danglingTarget "hall" "cellar",
      danglingTarget "hall" "cellar", danglingTarget "hall" "attic"] := by
  decide

end Colloquy
