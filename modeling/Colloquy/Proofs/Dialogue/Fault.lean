import Colloquy.Proofs.Dialogue.Targets

/-!
# What building fails with

Reading a text and compiling forms fail with faults of their own, which are those that end loading
(`FaultKind.isLoadFailure`). Here each function that reads a part of the grammar is shown to refuse
with nothing else (`RefusesIn`), in the order in which they call each other, up to
`ofSources_loading`. The one refusal of another kind is that of an undeclared target, which only
strict building makes: main statement, `strict_or_unknown`.
-/

namespace Colloquy

variable {ε ε' α β : Type}

/-- Whatever the result is refused with is in `P`. -/
def RefusesIn (P : ε → Prop) (r : Except ε α) : Prop := ∀ fault, r = .error fault → P fault

namespace RefusesIn

variable {P : ε → Prop}

theorem ok (value : α) : RefusesIn P (.ok value) := by
  intro fault h
  cases h

theorem error {fault : ε} (hfault : P fault) : RefusesIn P (.error fault : Except ε α) := by
  intro other h
  cases h
  exact hfault

theorem bind {r : Except ε α} {f : α → Except ε β} (hr : RefusesIn P r)
    (hf : ∀ a, RefusesIn P (f a)) : RefusesIn P (r >>= f) := by
  cases r with
  | ok a => exact hf a
  | error fault => exact .error (hr fault rfl)

theorem mapError {Q : ε' → Prop} {g : ε → ε'} (hg : ∀ fault, P fault → Q (g fault))
    {r : Except ε α} (hr : RefusesIn P r) : RefusesIn Q (r.mapError g) := by
  cases r with
  | ok a => exact .ok a
  | error fault => exact .error (hg fault (hr fault rfl))

theorem foldlM {f : β → α → Except ε β} (hf : ∀ b a, RefusesIn P (f b a)) :
    ∀ (items : List α) (b : β), RefusesIn P (items.foldlM f b)
  | [], b => .ok b
  | a :: rest, b => by
    rw [List.foldlM_cons]
    exact (hf b a).bind fun b' => foldlM hf rest b'

theorem forM {f : α → Except ε Unit} (hf : ∀ a, RefusesIn P (f a)) :
    ∀ items : List α, RefusesIn P (items.forM f)
  | [] => .ok ()
  | a :: rest => (hf a).bind fun _ => forM hf rest

theorem mapM {f : α → Except ε β} (hf : ∀ a, RefusesIn P (f a)) :
    ∀ items : List α, RefusesIn P (items.mapM f)
  | [] => .ok []
  | a :: rest => by
    rw [List.mapM_cons]
    exact (hf a).bind fun b => (mapM hf rest).bind fun bs => .ok (b :: bs)

end RefusesIn

/-! ## Compiling forms -/

/-- The fault ends loading: it is no complaint about a target. -/
abbrev GrammarFault.Loading (fault : GrammarFault) : Prop := fault.kind.isLoadFailure = true

open GrammarFault (Loading)

theorem checkHead_loading (label : String) (form : Expr) :
    RefusesIn Loading (checkHead label form) := by
  unfold checkHead
  split
  · split
    · exact .error rfl
    · split
      · exact .error rfl
      · exact .ok ()
  · exact .ok ()

mutual

theorem checkCode_loading (label : String) : ∀ e : Expr, RefusesIn Loading (checkCode label e)
  | .number _ => .ok ()
  | .text _ => .ok ()
  | .symbol _ => .ok ()
  | .list items => by
    rw [checkCode]
    exact (checkHead_loading label _).bind fun _ => checkCodeAll_loading label items

theorem checkCodeAll_loading (label : String) :
    ∀ es : List Expr, RefusesIn Loading (checkCodeAll label es)
  | [] => .ok ()
  | e :: rest => by
    rw [checkCodeAll]
    exact (checkCode_loading label e).bind fun _ => checkCodeAll_loading label rest

end

theorem choiceKeywords_loading (label text : String) (target : Option String)
    (condition : Option Expr) (rest : List Expr) :
    RefusesIn Loading (choiceKeywords label text target condition rest) := by
  fun_induction choiceKeywords label text target condition rest with
  | case1 target condition => exact .ok _
  | case2 | case3 | case5 | case7 => exact .error rfl
  | case4 condition key value rest _ name _ _ ih => exact ih
  | case6 target condition key value rest _ _ ih => exact ih

theorem choiceBody_loading (label text : String) (rest : List Expr) :
    RefusesIn Loading (choiceBody label text rest) := by
  unfold choiceBody
  split
  · exact choiceKeywords_loading label text none none rest
  · split
    · exact .ok _
    · exact .ok _
    · exact .error rfl

theorem compileChoice_loading (label : String) (items : List Expr) :
    RefusesIn Loading (compileChoice label items) := by
  unfold compileChoice
  split
  · refine (choiceBody_loading label _ _).bind ?_
    rintro ⟨target, condition⟩
    cases condition with
    | some condition => exact (checkCode_loading label condition).bind fun _ => .ok _
    | none => exact .ok _
  · exact .error rfl

theorem compileText_loading (label : String) (items : List Expr) :
    RefusesIn Loading (compileText label items) := by
  unfold compileText
  split
  · exact .ok _
  · exact .error rfl

theorem afterItems_loading (label : String) (code : Option (List Expr)) (target : Option String)
    (items : List Expr) : RefusesIn Loading (afterItems label code target items) := by
  fun_induction afterItems label code target items with
  | case1 code target => exact .ok _
  | case2 code target item rest hbody body ih =>
    exact (checkCodeAll_loading label _).bind fun _ => ih
  | case3 code target item _ _ name rest ih => exact ih
  | case4 | case5 => exact .error rfl

theorem LabelDraft.add_loading (label : String) (draft : LabelDraft) (form : Expr) :
    RefusesIn Loading (draft.add label form) := by
  unfold add
  split
  · split
    · split
      · exact .error rfl
      · exact (compileText_loading label _).bind fun _ => .ok _
    · exact (compileChoice_loading label _).bind fun _ => .ok _
    · split
      · exact .error rfl
      · exact (afterItems_loading label none none _).bind fun _ => .ok _
    · exact .error rfl
  · exact .error rfl

theorem compileLabel_loading (items : List Expr) : RefusesIn Loading (compileLabel items) := by
  unfold compileLabel
  split
  · exact .error rfl
  · refine (RefusesIn.foldlM (LabelDraft.add_loading _) _ _).bind fun draft => ?_
    split
    · exact .ok _
    · exact .error rfl
  · exact .error rfl

theorem compileStart_loading (items : List Expr) : RefusesIn Loading (compileStart items) := by
  unfold compileStart
  split
  · exact .ok _
  · exact .error rfl

theorem ProgramDraft.add_loading (draft : ProgramDraft) (form : Expr) :
    RefusesIn Loading (draft.add form) := by
  unfold add
  split
  · split
    · refine (compileLabel_loading _).bind fun label => ?_
      split
      · exact .error rfl
      · exact .ok _
    · refine (compileStart_loading _).bind fun name => ?_
      split
      · exact .error rfl
      · exact .ok _
    · exact .error rfl
  · exact .error rfl

theorem compileForms_loading (forms : List Expr) : RefusesIn Loading (compileForms forms) := by
  unfold compileForms
  refine (RefusesIn.foldlM ProgramDraft.add_loading _ _).bind fun draft => ?_
  split
  · exact .error rfl
  · split
    · exact .ok _
    · exact .error rfl

/-! ## Building programs -/

namespace Program

theorem formsOfFile_loading (file : String × String) :
    RefusesIn (fun fault => fault.kind.isLoadFailure = true) (formsOfFile file) := by
  refine RefusesIn.mapError (P := fun _ => True) (fun cause _ => ?_) fun _ _ => trivial
  cases cause <;> rfl

theorem ofForms_loading (forms : List Expr) : RefusesIn Loading (ofForms false forms) :=
  (compileForms_loading forms).bind fun _ => .ok _

/-- Built leniently, a program is refused with faults that end loading, and with no others. -/
theorem ofSources_loading (sources : NameMap String) :
    RefusesIn (fun fault => fault.kind.isLoadFailure = true) (ofSources false sources) := by
  refine (RefusesIn.mapM formsOfFile_loading _).bind fun forms => ?_
  exact RefusesIn.mapError (g := Fault.grammar) (fun _ hfault => hfault) (ofForms_loading _)

/-- Of a dialogue that is checked, an undeclared target is all that is complained of. -/
theorem checkTargets_unknown (d : Dialogue) :
    RefusesIn (fun fault => fault.kind = .unknownLabel) d.checkTargets := by
  refine RefusesIn.forM (fun label => RefusesIn.forM (fun target => ?_) _) _
  split
  · exact .ok ()
  · exact .error rfl

/-- Strict building comes to the same as lenient building, or complains of an undeclared target. -/
theorem ofForms_strict (forms : List Expr) :
    ofForms true forms = ofForms false forms ∨
      ∃ program fault, ofForms false forms = .ok program ∧ ofForms true forms = .error fault ∧
        fault.kind = .unknownLabel := by
  cases hcompiled : compileForms forms with
  | error fault =>
    unfold ofForms
    rw [hcompiled]
    exact .inl rfl
  | ok dialogue =>
    have hlenient : ofForms false forms = .ok ⟨dialogue, dialogue.diagnostics⟩ := by
      unfold ofForms
      rw [hcompiled]
      rfl
    have hstrict : ofForms true forms
        = (do dialogue.checkTargets; .ok ⟨dialogue, dialogue.diagnostics⟩) := by
      unfold ofForms
      rw [hcompiled]
      rfl
    rw [hlenient, hstrict]
    cases hchecked : dialogue.checkTargets with
    | ok => exact .inl rfl
    | error fault => exact .inr ⟨_, fault, rfl, rfl, checkTargets_unknown dialogue fault hchecked⟩

/-- `ofForms_strict` for files. -/
theorem strict_or_unknown (sources : NameMap String) :
    ofSources true sources = ofSources false sources ∨
      ∃ program fault, ofSources false sources = .ok program ∧
        ofSources true sources = .error fault ∧ fault.kind = .unknownLabel := by
  unfold ofSources
  cases hread : sources.entries.mapM formsOfFile with
  | error fault => exact .inl rfl
  | ok forms =>
    rcases ofForms_strict forms.flatten with hsame | ⟨program, fault, hlenient, hstrict, hkind⟩
    · exact .inl (congrArg (Except.mapError Fault.grammar) hsame)
    · refine .inr ⟨program, .grammar fault, ?_, ?_, hkind⟩
      · exact congrArg (Except.mapError Fault.grammar) hlenient
      · exact congrArg (Except.mapError Fault.grammar) hstrict

end Program

end Colloquy
