import Colloquy.Evaluation
import Colloquy.Proofs.Action
import Colloquy.Proofs.NameMap

/-!
# Comparing two runs of code

Code is run twice, on two hosts with the same functions, on bindings that agree but for numbers,
which are only related by `N`, and in host states related by `S`. A `CodeSimulation N S` says what
the builtins and the functions of the two hosts have to respect. Main statement,
`CodeSimulation.evaluate`: then every expression either fails in both runs with the same fault or
has related values in both, and leaves related bindings and related hosts. If the hosts also seed
alike (`Simulation N S`), the same holds of whole turns (`Simulation.play`).

The relation of numbers may be equality, when the hosts differ in what they keep beside their
answers, or hold of any two numbers, when the same host starts from different ones.
-/

namespace Colloquy

variable {κ σ τ : Type}

/-- The values are equal, but that numbers are only related by `N`. -/
inductive Value.Related (N : Float → Float → Prop) : Value κ → Value κ → Prop
  | number {x y : Float} (related : N x y) : Related N (.number x) (.number y)
  | text (s : String) : Related N (.text s) (.text s)
  | symbol (name : String) : Related N (.symbol name) (.symbol name)
  | function (f : Native κ) : Related N (.function f) (.function f)
  | handle (id : Nat) : Related N (.handle id) (.handle id)
  | none : Related N .none .none

namespace Value.Related

variable {N : Float → Float → Prop} {v w : Value κ}

theorem refl (hN : ∀ x, N x x) : ∀ v : Value κ, Related N v v
  | .number x => .number (hN x)
  | .text s => .text s
  | .symbol name => .symbol name
  | .function f => .function f
  | .handle id => .handle id
  | .none => .none

/-- Values related by equality of numbers are equal. -/
theorem eq {v w : Value κ} (h : Related (· = ·) v w) : v = w := by
  cases h with
  | number related => rw [related]
  | _ => rfl

theorem expectNumber (h : Related N v w) (context : String) :
    Agree N (v.expectNumber context) (w.expectNumber context) := by
  cases h with
  | number related => exact .ok related
  | _ => exact .error _

theorem expectHandle (h : Related N v w) (context : String) :
    Agree (· = ·) (v.expectHandle context) (w.expectHandle context) := by
  cases h with
  | handle id => exact .ok rfl
  | _ => exact .error _

end Value.Related

/-- Arguments related one by one, related by equality of numbers, are equal. -/
theorem Value.eq_of_forall₂ {xs ys : List (Value κ)}
    (h : List.Forall₂ (Value.Related (· = ·)) xs ys) : xs = ys := by
  have heq : List.Forall₂ (· = ·) xs ys := h.imp fun _ _ hvalue => hvalue.eq
  rwa [List.forall₂_eq_eq_eq] at heq

theorem Builtin.apply_of_eq (b : Builtin) {xs ys : List (Value κ)}
    (h : List.Forall₂ (Value.Related (· = ·)) xs ys) :
    Agree (Value.Related (· = ·)) (b.apply xs) (b.apply ys) := by
  rw [Value.eq_of_forall₂ h]
  exact Agree.refl (Value.Related.refl fun _ => rfl) _

/-- The bindings agree by `N` and the hosts are related by `S`. -/
structure TurnState.Related (N : Float → Float → Prop) (S : σ → τ → Prop) (a : TurnState κ σ)
    (b : TurnState κ τ) : Prop where
  bindings : NameMap.Related (Value.Related N) a.bindings b.bindings
  host : S a.host b.host

/-- The relation of numbers relates no number to another one. -/
def Exact (N : Float → Float → Prop) : Prop := ∀ x y, N x y → x = y

/-- What two hosts have to respect for runs of code to stay comparable. -/
structure CodeSimulation (N : Float → Float → Prop) (S : σ → τ → Prop) (h : Host κ σ)
    (k : Host κ τ) : Prop where
  literal : ∀ x, N x x
  builtin : ∀ (b : Builtin) {xs ys : List (Value κ)}, List.Forall₂ (Value.Related N) xs ys →
    Agree (Value.Related N) (b.apply xs) (b.apply ys)
  signature : ∀ f, h.signature f = k.signature f
  call : ∀ (f : κ) {xs ys : List (Value κ)}, List.Forall₂ (Value.Related N) xs ys →
    Action.InStep S (Value.Related N) (h.call f xs) (k.call f ys)

/-- What they have to respect for whole turns to stay comparable. -/
structure Simulation (N : Float → Float → Prop) (S : σ → τ → Prop) (h : Host κ σ) (k : Host κ τ) :
    Prop extends CodeSimulation N S h k where
  seed : ∀ {s t}, S s t →
    Agree (NameMap.Related (Value.Related N)) (h.turnBindings s) (k.turnBindings t)

namespace CodeSimulation

open Colloquy.Action (InStep)

variable {N : Float → Float → Prop} {S : σ → τ → Prop} {h : Host κ σ} {k : Host κ τ}

/-! ## The pieces of evaluation -/

theorem fail {α β : Type} {R : α → β → Prop} (cause : EvaluationFault) :
    InStep (TurnState.Related N S) R (Turn.fail cause : Turn κ σ α) (Turn.fail cause) :=
  .throw _

theorem onHost {α β : Type} {R : α → β → Prop} {a : Action σ α} {b : Action τ β}
    (hab : InStep S R a b) :
    InStep (TurnState.Related (κ := κ) N S) R (Turn.onHost a) (Turn.onHost b) :=
  hab.within (fun _ _ related => related.host) fun _ _ _ _ related hS => ⟨related.bindings, hS⟩

theorem lookup (name : String) :
    InStep (TurnState.Related (κ := κ) N S) (Value.Related N) (Turn.lookup name)
      (Turn.lookup name) := by
  refine InStep.bind .get fun a b related => ?_
  have hname := related.bindings name
  generalize a.bindings.find? name = v at hname
  generalize b.bindings.find? name = w at hname
  cases hname with
  | some hvalue => exact .pure hvalue
  | none => exact fail _

theorem assign (name : String) {v w : Value κ} (hvalue : Value.Related N v w) :
    InStep (TurnState.Related N S) (fun _ _ => True) (Turn.assign name v) (Turn.assign name w) := by
  refine InStep.bind .get fun a b related => ?_
  rw [related.bindings.contains_eq name]
  split
  · exact .set ⟨related.bindings.insert name hvalue, related.host⟩
  · exact fail _

theorem callee (head : Expr) {v w : Value κ} (hvalue : Value.Related N v w) :
    InStep (TurnState.Related N S) (· = ·) (Turn.callee head v) (Turn.callee head w) := by
  cases hvalue with
  | function f => exact .pure rfl
  | _ => exact fail _

/-- Both functions of one name accept a number of arguments or neither does. -/
theorem checkCount {σ' τ' : Type} {S' : σ' → τ' → Prop} (H : CodeSimulation N S h k) (f : Native κ)
    (count : Nat) : InStep S' (fun _ _ => True) (Action.ofExcept (h.checkCount f count))
      (Action.ofExcept (k.checkCount f count)) := by
  have hsignature : h.signatureOf f = k.signatureOf f := by
    cases f with
    | builtin b => rfl
    | own f => exact H.signature f
  unfold Host.checkCount
  rw [hsignature]
  exact .ofExcept (Agree.refl (fun _ => trivial) _)

theorem run (H : CodeSimulation N S h k) (f : Native κ) {xs ys : List (Value κ)}
    (hargs : List.Forall₂ (Value.Related N) xs ys) :
    InStep S (Value.Related N) (h.run f xs) (k.run f ys) := by
  cases f with
  | builtin b => exact .ofExcept ((H.builtin b hargs).mapError _)
  | own f => exact H.call f hargs

theorem apply (H : CodeSimulation N S h k) (f : Native κ) {xs ys : List (Value κ)}
    (hargs : List.Forall₂ (Value.Related N) xs ys) :
    InStep S (Value.Related N) (h.apply f xs) (k.apply f ys) := by
  unfold Host.apply
  rw [hargs.length_eq]
  exact (H.checkCount f ys.length).bind fun _ _ _ => H.run f hargs

/-! ## Expressions

By recursion on the expression, with one statement for each of the evaluator's functions. -/

mutual

/-- Both runs of an expression fail with the same fault or have related values. -/
theorem evaluate (H : CodeSimulation N S h k) :
    ∀ e : Expr, InStep (TurnState.Related N S) (Value.Related N) (Turn.evaluate h e)
      (Turn.evaluate k e)
  | .number x => by
    rw [Turn.evaluate, Turn.evaluate]
    exact .pure (.number (H.literal x))
  | .text s => by
    rw [Turn.evaluate, Turn.evaluate]
    exact .pure (.text s)
  | .symbol name => by
    rw [Turn.evaluate, Turn.evaluate]
    exact lookup name
  | .list items => by
    rw [Turn.evaluate, Turn.evaluate]
    exact evaluateList H items

theorem evaluateList (H : CodeSimulation N S h k) :
    ∀ items : List Expr, InStep (TurnState.Related N S) (Value.Related N)
      (Turn.evaluateList h items) (Turn.evaluateList k items)
  | [] => by
    rw [Turn.evaluateList, Turn.evaluateList]
    exact fail _
  | head :: args => by
    rw [Turn.evaluateList, Turn.evaluateList]
    split
    · exact evaluateAssignment H args
    · refine (evaluate H head).bind fun v w hhead => ?_
      refine (callee head hhead).bind fun f g hf => ?_
      rw [← hf]
      refine (H.checkCount f args.length).bind fun _ _ _ => ?_
      exact (evaluateAll H args).bind fun _ _ hargs => onHost (H.apply f hargs)

theorem evaluateAssignment (H : CodeSimulation N S h k) :
    ∀ items : List Expr, InStep (TurnState.Related N S) (Value.Related N)
      (Turn.evaluateAssignment h items) (Turn.evaluateAssignment k items)
  | [] => by
    rw [Turn.evaluateAssignment, Turn.evaluateAssignment] <;> simp
    exact fail _
  | [_] => fail _
  | [target, e] => by
    rw [Turn.evaluateAssignment, Turn.evaluateAssignment]
    split
    · next name _ =>
      refine (evaluate H e).bind fun v w hvalue => ?_
      exact (assign name hvalue).bind fun _ _ _ => .pure hvalue
    · exact fail _
  | _ :: _ :: _ :: _ => fail _

theorem evaluateAll (H : CodeSimulation N S h k) :
    ∀ items : List Expr, InStep (TurnState.Related N S) (List.Forall₂ (Value.Related N))
      (Turn.evaluateAll h items) (Turn.evaluateAll k items)
  | [] => by
    rw [Turn.evaluateAll, Turn.evaluateAll]
    exact .pure .nil
  | e :: rest => by
    rw [Turn.evaluateAll, Turn.evaluateAll]
    refine (evaluate H e).bind fun v w hvalue => ?_
    exact (evaluateAll H rest).bind fun _ _ hvalues => .pure (.cons hvalue hvalues)

end

/-! ## Conditions and blocks -/

/-- Conditions fail alike in both runs, and hold alike where `N` tells numbers apart. -/
theorem evaluateCondition (H : CodeSimulation N S h k) (condition : Expr) :
    InStep (TurnState.Related N S) (fun holds holds' => Exact N → holds = holds')
      (Turn.evaluateCondition h condition) (Turn.evaluateCondition k condition) := by
  refine (H.evaluate condition).bind fun v w hvalue => ?_
  have hnumber := hvalue.expectNumber "Condition"
  generalize v.expectNumber "Condition" = r at hnumber
  generalize w.expectNumber "Condition" = r' at hnumber
  cases hnumber with
  | ok related => exact .pure fun hN => by rw [hN _ _ related]
  | error cause => exact fail cause

theorem executeBlock (H : CodeSimulation N S h k) :
    ∀ code : List Expr, InStep (TurnState.Related N S) (fun _ _ => True)
      (Turn.executeBlock h code) (Turn.executeBlock k code)
  | [] => .pure trivial
  | e :: rest => (H.evaluate e).bind fun _ _ _ => executeBlock H rest

end CodeSimulation

/-- Whole turns in step end with related bindings. -/
theorem Simulation.play {α β : Type} {R : α → β → Prop} {N : Float → Float → Prop}
    {S : σ → τ → Prop} {h : Host κ σ} {k : Host κ τ} (H : Simulation N S h k) {turn : Turn κ σ α}
    {turn' : Turn κ τ β} (hturn : Action.InStep (TurnState.Related N S) R turn turn') :
    Action.InStep S (fun x y => R x.1 y.1 ∧ NameMap.Related (Value.Related N) x.2 y.2)
      (Turn.play h turn) (Turn.play k turn') := by
  intro s t hS
  have hseed := H.seed hS
  unfold Turn.play
  rw [Action.result_of, Action.result_of]
  generalize h.turnBindings s = r at hseed
  generalize k.turnBindings t = r' at hseed
  cases hseed with
  | error fault => exact ⟨.error fault, hS⟩
  | @ok bindings bindings' hbindings =>
    -- a turn that fails loses its bindings but not what it did to the host
    rcases hturn.ok_or_error (s := ⟨bindings, s⟩) (t := ⟨bindings', t⟩) ⟨hbindings, hS⟩ with
      ⟨x, y, state, state', hrun, hrun', hR, hstate⟩ | ⟨fault, state, state', hrun, hrun', hstate⟩
    · dsimp only
      rw [hrun, hrun']
      exact ⟨.ok ⟨hR, hstate.bindings⟩, hstate.host⟩
    · dsimp only
      rw [hrun, hrun']
      exact ⟨.error fault, hstate.host⟩

end Colloquy
