import Colloquy.Playthrough
import Colloquy.Proofs.Action

/-!
# What turns fail with

Code fails for a cause of evaluation or with what a function of the host raised, and with nothing
else (`Host.Raises`). So a fault that tells of a step that the player should not have made
(`Fault.IsMisuse`) never comes out of a turn. Main statements: `Host.Raises.play` for turns,
`Host.Raises.build` for views, where the label may moreover be unknown.
-/

namespace Colloquy

variable {κ σ τ α β : Type}

/-- The fault of a submission that the player should not have made: there is no such choice, or the
dialogue is over. -/
def Fault.IsMisuse (f : Fault) : Prop := f.kind = .indexOutOfRange ∨ f.kind = .dialogueEnded

theorem Fault.not_isMisuse_evaluation (cause : EvaluationFault) :
    ¬ (Fault.evaluation cause).IsMisuse := by
  unfold IsMisuse
  cases cause <;> simp [Fault.kind, Fault.report, EvaluationFault.report, Report.ofKind,
    EvaluationFault.kind]

theorem Fault.not_isMisuse_host (code message : String) : ¬ (Fault.host code message).IsMisuse := by
  simp [IsMisuse, Fault.kind, Fault.report, Fault.host, Report.host]

theorem Fault.not_isMisuse_unknownLabel (name : String) :
    ¬ (Fault.play (.unknownLabel name)).IsMisuse := by
  simp [IsMisuse, Fault.kind, Fault.report, PlayFault.report, Report.ofKind, PlayFault.kind]

namespace Action

/-- Whatever the action fails with is in `P`. -/
def FailsIn (P : Fault → Prop) (a : Action σ α) : Prop :=
  ∀ s fault s', a.result s = (.error fault, s') → P fault

namespace FailsIn

variable {P : Fault → Prop}

theorem pure (value : α) : FailsIn P (Pure.pure value : Action σ α) := by
  intro s fault s' h
  cases h

theorem throw {fault : Fault} (hfault : P fault) :
    FailsIn P (MonadExcept.throw fault : Action σ α) := by
  intro s other s' h
  cases h
  exact hfault

theorem ofExcept {r : Except Fault α} (hr : ∀ fault, r = .error fault → P fault) :
    FailsIn P (Action.ofExcept r : Action σ α) := by
  intro s fault s' h
  rw [result_ofExcept] at h
  exact hr fault (Prod.mk.inj h).1

theorem bind {a : Action σ α} {k : α → Action σ β} (ha : FailsIn P a)
    (hk : ∀ value, FailsIn P (k value)) : FailsIn P (a >>= k) := by
  intro s fault s' h
  rcases hfirst : a.result s with ⟨cause | value, s₁⟩
  · rw [result_bind_of_error hfirst] at h
    cases h
    exact ha _ _ _ hfirst
  · rw [result_bind_of_ok hfirst] at h
    exact hk value _ _ _ h

theorem get : FailsIn P (MonadState.get : Action σ σ) := by
  intro s fault s' h
  cases h

theorem set (s : σ) : FailsIn P (MonadStateOf.set s : Action σ Unit) := by
  intro s₁ fault s' h
  cases h

theorem within {part : τ → σ} {replace : τ → σ → τ} {a : Action σ α} (ha : FailsIn P a) :
    FailsIn P (a.within part replace) := by
  intro t fault t' h
  rw [result_within] at h
  exact ha _ _ _ (Prod.ext (Prod.mk.inj h).1 rfl)

end FailsIn

end Action

open Colloquy.Action (FailsIn)

/-- Code on this host fails with nothing but faults in `P`. -/
structure Host.Raises (P : Fault → Prop) (h : Host κ σ) : Prop where
  evaluation : ∀ cause, P (.evaluation cause)
  call : ∀ f args, FailsIn P (h.call f args)
  seed : ∀ s fault, h.turnBindings s = .error fault → P fault

namespace Host.Raises

variable {P : Fault → Prop} {h : Host κ σ}

theorem fail (H : h.Raises P) (cause : EvaluationFault) :
    FailsIn P (Turn.fail cause : Turn κ σ α) :=
  .throw (H.evaluation cause)

theorem lookup (H : h.Raises P) (name : String) : FailsIn P (Turn.lookup name : Turn κ σ _) := by
  refine FailsIn.get.bind fun state => ?_
  split
  · exact .pure _
  · exact H.fail _

theorem assign (H : h.Raises P) (name : String) (value : Value κ) :
    FailsIn P (Turn.assign name value : Turn κ σ Unit) := by
  refine FailsIn.get.bind fun state => ?_
  split
  · exact .set _
  · exact H.fail _

theorem callee (H : h.Raises P) (head : Expr) (v : Value κ) :
    FailsIn P (Turn.callee head v : Turn κ σ _) := by
  cases v with
  | function f => exact .pure f
  | _ => exact H.fail _

theorem checkCount (H : h.Raises P) (f : Native κ) (count : Nat) :
    FailsIn P (Action.ofExcept (h.checkCount f count) : Action τ Unit) := by
  refine .ofExcept fun fault hfault => ?_
  unfold Host.checkCount at hfault
  dsimp only at hfault
  split at hfault
  · cases hfault
  · cases hfault
    exact H.evaluation _

theorem run (H : h.Raises P) (f : Native κ) (args : List (Value κ)) :
    FailsIn P (h.run f args) := by
  cases f with
  | own f => exact H.call f args
  | builtin b =>
    refine .ofExcept fun fault hfault => ?_
    cases happly : b.apply args with
    | ok value =>
      rw [happly] at hfault
      cases hfault
    | error cause =>
      rw [happly] at hfault
      cases hfault
      exact H.evaluation cause

theorem apply (H : h.Raises P) (f : Native κ) (args : List (Value κ)) :
    FailsIn P (h.apply f args) :=
  (H.checkCount f args.length).bind fun _ => H.run f args

mutual

theorem evaluate (H : h.Raises P) : ∀ e : Expr, FailsIn P (Turn.evaluate h e)
  | .number x => by
    rw [Turn.evaluate]
    exact .pure _
  | .text s => by
    rw [Turn.evaluate]
    exact .pure _
  | .symbol name => by
    rw [Turn.evaluate]
    exact H.lookup name
  | .list items => by
    rw [Turn.evaluate]
    exact evaluateList H items

theorem evaluateList (H : h.Raises P) : ∀ items : List Expr, FailsIn P (Turn.evaluateList h items)
  | [] => by
    rw [Turn.evaluateList]
    exact H.fail _
  | head :: args => by
    rw [Turn.evaluateList]
    split
    · exact evaluateAssignment H args
    · refine (evaluate H head).bind fun v => ?_
      refine (H.callee head v).bind fun f => ?_
      refine (H.checkCount f args.length).bind fun _ => ?_
      exact (evaluateAll H args).bind fun values => (H.apply f values).within

theorem evaluateAssignment (H : h.Raises P) :
    ∀ items : List Expr, FailsIn P (Turn.evaluateAssignment h items)
  | [] => H.fail _
  | [_] => H.fail _
  | [target, e] => by
    rw [Turn.evaluateAssignment]
    split
    · refine (evaluate H e).bind fun value => ?_
      exact (H.assign _ value).bind fun _ => .pure _
    · exact H.fail _
  | _ :: _ :: _ :: _ => H.fail _

theorem evaluateAll (H : h.Raises P) : ∀ items : List Expr, FailsIn P (Turn.evaluateAll h items)
  | [] => by
    rw [Turn.evaluateAll]
    exact .pure _
  | e :: rest => by
    rw [Turn.evaluateAll]
    refine (evaluate H e).bind fun value => ?_
    exact (evaluateAll H rest).bind fun values => .pure _

end

theorem evaluateCondition (H : h.Raises P) (condition : Expr) :
    FailsIn P (Turn.evaluateCondition h condition) := by
  refine (H.evaluate condition).bind fun v => ?_
  split
  · exact .pure _
  · exact H.fail _

theorem executeBlock (H : h.Raises P) : ∀ code : List Expr, FailsIn P (Turn.executeBlock h code)
  | [] => .pure _
  | e :: rest => (H.evaluate e).bind fun _ => executeBlock H rest

/-- A turn fails with what the host refused to seed, or with what its code failed with. -/
theorem play (H : h.Raises P) {turn : Turn κ σ α} (hturn : FailsIn P turn) :
    FailsIn P (Turn.play h turn) := by
  intro s fault s' hfail
  rw [Turn.play, Action.result_of] at hfail
  rcases hseed : h.turnBindings s with cause | seeded
  · rw [hseed] at hfail
    cases hfail
    exact H.seed s _ hseed
  · rw [hseed] at hfail
    dsimp only at hfail
    rcases hrun : turn.result ⟨seeded, s⟩ with ⟨cause | value, state⟩
    · rw [hrun] at hfail
      cases hfail
      exact hturn _ _ _ hrun
    · rw [hrun] at hfail
      cases hfail

theorem allowed (H : h.Raises P) (choice : Choice) : FailsIn P (Playthrough.allowed h choice) := by
  refine H.play ?_
  split
  · exact H.evaluateCondition _
  · exact .pure _

theorem openChoices (H : h.Raises P) :
    ∀ (choices : List Choice) (place : Nat), FailsIn P (Playthrough.openChoices h place choices)
  | [], _ => .pure _
  | choice :: rest, place => by
    refine (H.allowed choice).bind fun _ => ?_
    exact (openChoices H rest (place + 1)).bind fun _ => .pure _

theorem viewOf (H : h.Raises P) (label : Label) : FailsIn P (Playthrough.viewOf h label) := by
  unfold Playthrough.viewOf
  split
  · exact .pure _
  · exact (H.openChoices _ 0).bind fun _ => .pure _

/-- Building a label fails with a fault of its conditions, or because there is no such label. -/
theorem build (H : h.Raises P) {d : Dialogue} {name : String}
    (hlabel : d.labels.contains name = true ∨ P (.play (.unknownLabel name))) :
    FailsIn P (Playthrough.build h d name) := by
  refine FailsIn.bind (.ofExcept fun fault hfault => ?_) H.viewOf
  unfold Playthrough.resolve at hfault
  split at hfault
  · cases hfault
  · next hnone =>
    cases hfault
    rcases hlabel with hdeclared | hunknown
    · exact absurd (Option.not_isSome_iff_eq_none.mpr hnone) (not_not_intro hdeclared)
    · exact hunknown

section Leaving

variable (H : h.Raises P) (hrange : ∀ label index count, P (.play (.indexOutOfRange label index count)))

include H hrange

theorem continueFrom (label : Label) (index : Nat) :
    FailsIn P (Playthrough.continueFrom h label index) := by
  unfold Playthrough.continueFrom
  split
  · exact .throw (hrange _ _ _)
  · split
    · exact .pure _
    · exact (H.play (H.executeBlock _)).bind fun _ => .pure _

theorem choose (indexing : Indexing) (view : View) (choices : List Choice) (index : Nat) :
    FailsIn P (Playthrough.choose h indexing view choices index) := by
  refine FailsIn.bind (.ofExcept fun fault hfault => ?_) fun choice =>
    (H.allowed choice).bind fun _ => .pure _
  unfold Playthrough.pick at hfault
  cases indexing with
  | declared =>
    dsimp only at hfault
    split at hfault
    · cases hfault
    · cases hfault
      exact hrange _ _ _
  | visible =>
    dsimp only at hfault
    split at hfault
    · split at hfault
      · cases hfault
      · cases hfault
        exact hrange _ _ _
    · cases hfault
      exact hrange _ _ _

end Leaving

end Host.Raises

end Colloquy
