import Colloquy.Dialogue.Grammar
import Colloquy.Evaluation
import Colloquy.Proofs.Action
import Colloquy.Proofs.NameMap

/-!
# What code can rebind

`Expr.writes` lists the targets of the assignments in an expression, wherever they stand in it, run
or not. Main statement, `Turn.evaluate_frames`: on every host and in every state, evaluating an
expression leaves the names that are bound as they are and the values of all but its targets, whether
it fails or not. So do conditions and blocks, and a turn ends with the bindings that the host seeded
but for these names (`Turn.Frames.play_eq_ok`).

Bindings only ever change in `assign`. Every other step is built of steps that frame the same names
(`Frames.bind`), so each function of the evaluator frames the targets of what it is given.
-/

namespace Colloquy

variable {κ σ α β : Type}

namespace Expr

/-- The target of an assignment with the given items. -/
def target? : List Expr → Option String
  | [.symbol head, .symbol name, _] => if head = assignmentWord then some name else none
  | _ => none

mutual

/-- The targets of the assignments in an expression. -/
def writes : Expr → List String
  | list items => (target? items).toList ++ writesAll items
  | _ => []

/-- The targets of the assignments in some expressions. -/
def writesAll : List Expr → List String
  | [] => []
  | e :: rest => writes e ++ writesAll rest

end

theorem writesAll_subset (items : List Expr) : writesAll items ⊆ (list items).writes := by
  rw [writes]
  exact List.subset_append_right _ _

theorem writes_subset_of_mem {e : Expr} : ∀ {items : List Expr}, e ∈ items →
    e.writes ⊆ writesAll items
  | first :: rest, h => by
    rw [writesAll]
    rcases List.mem_cons.mp h with rfl | h
    · exact List.subset_append_left _ _
    · exact List.Subset.trans (writes_subset_of_mem h) (List.subset_append_right _ _)

theorem writesAll_append (as bs : List Expr) :
    writesAll (as ++ bs) = writesAll as ++ writesAll bs := by
  induction as with
  | nil => rfl
  | cons a as ih => rw [List.cons_append, writesAll, writesAll, ih, List.append_assoc]

end Expr

namespace Turn

open Colloquy.Expr (writesAll writesAll_subset writes_subset_of_mem)
open NameMap (ChangesOnly)

/-- Whatever the turn does, and whether it fails or not, it rebinds none but the given names. -/
def Frames (names : List String) (turn : Turn κ σ α) : Prop :=
  ∀ state, ChangesOnly names state.bindings (turn.result state).2.bindings

/-! ## The pieces of evaluation -/

namespace Frames

variable {names more : List String} {turn : Turn κ σ α}

/-- A step that leaves the bindings alone frames any names. -/
theorem of_eq (h : ∀ state, (turn.result state).2.bindings = state.bindings) : Frames names turn := by
  intro state
  rw [h state]
  exact .refl names _

theorem mono (h : Frames names turn) (hmore : names ⊆ more) : Frames more turn :=
  fun state => (h state).mono hmore

theorem pure (value : α) : Frames names (Pure.pure value : Turn κ σ α) := of_eq fun _ => rfl

theorem fail (cause : EvaluationFault) : Frames names (Turn.fail cause : Turn κ σ α) :=
  of_eq fun _ => rfl

theorem ofExcept (r : Except Fault α) : Frames names (Action.ofExcept r : Turn κ σ α) := by
  refine of_eq fun state => ?_
  rw [Action.result_ofExcept]

theorem onHost (a : Action σ α) : Frames names (Turn.onHost a : Turn κ σ α) := of_eq fun _ => rfl

theorem bind {rest : α → Turn κ σ β} (h : Frames names turn)
    (hrest : ∀ value, Frames names (rest value)) : Frames names (turn >>= rest) := by
  intro state
  have hfirst := h state
  rw [Action.result_bind]
  rcases hturn : turn.result state with ⟨fault | value, state'⟩
  · rw [hturn] at hfirst
    exact hfirst
  · rw [hturn] at hfirst
    exact hfirst.trans (hrest value state')

theorem lookup (name : String) : Frames names (Turn.lookup name : Turn κ σ (Value κ)) := by
  refine of_eq fun state => ?_
  unfold Turn.lookup
  rw [Action.result_bind_of_ok (Action.result_get state)]
  cases state.bindings.find? name <;> rfl

theorem callee (head : Expr) (v : Value κ) : Frames names (Turn.callee head v : Turn κ σ _) := by
  cases v with
  | function f => exact pure f
  | _ => exact fail _

/-- An assignment binds its target anew, or fails and binds nothing. -/
theorem assign (name : String) (value : Value κ) :
    Frames [name] (Turn.assign name value : Turn κ σ Unit) := by
  intro state
  unfold Turn.assign
  rw [Action.result_bind_of_ok (Action.result_get state)]
  by_cases hbound : state.bindings.contains name = true
  · rw [if_pos hbound]
    exact .insert (NameMap.mem_names_iff.mpr hbound) value
  · rw [if_neg hbound]
    exact .refl _ _

end Frames

/-! ## Expressions

By recursion on the expression, with one statement for each of the evaluator's functions. -/

mutual

/-- An expression rebinds nothing but the targets of its assignments. -/
theorem evaluate_frames (h : Host κ σ) : ∀ e : Expr, Frames e.writes (evaluate h e)
  | .number x => by
    rw [evaluate]
    exact .pure _
  | .text s => by
    rw [evaluate]
    exact .pure _
  | .symbol name => by
    rw [evaluate]
    exact .lookup name
  | .list items => by
    rw [evaluate]
    exact evaluateList_frames h items

theorem evaluateList_frames (h : Host κ σ) :
    ∀ items : List Expr, Frames (Expr.list items).writes (evaluateList h items)
  | [] => by
    rw [evaluateList]
    exact .fail _
  | head :: args => by
    rw [evaluateList]
    split
    · next hhead =>
      cases head with
      | symbol name =>
        obtain rfl : name = assignmentWord := Option.some.inj hhead
        exact evaluateAssignment_frames h args
      | _ => cases hhead
    · have hall := writesAll_subset (head :: args)
      have hhead : head.writes ⊆ (Expr.list (head :: args)).writes :=
        List.Subset.trans (writes_subset_of_mem (List.mem_cons_self ..)) hall
      have hargs : writesAll args ⊆ (Expr.list (head :: args)).writes := by
        rw [writesAll] at hall
        exact List.Subset.trans (List.subset_append_right _ _) hall
      refine ((evaluate_frames h head).mono hhead).bind fun v => ?_
      refine (Frames.callee head v).bind fun f => ?_
      refine (Frames.ofExcept _).bind fun _ => ?_
      -- a function of the host gets values, so it cannot reach the bindings
      exact ((evaluateAll_frames h args).mono hargs).bind fun values => .onHost _

theorem evaluateAssignment_frames (h : Host κ σ) : ∀ args : List Expr,
    Frames (Expr.list (.symbol assignmentWord :: args)).writes (evaluateAssignment h args)
  | [] => by
    rw [evaluateAssignment]
    · exact .fail _
    · simp
  | [_] => .fail _
  | [target, e] => by
    rw [evaluateAssignment]
    cases target with
    | symbol name =>
      have hvalue : e.writes ⊆ (Expr.list [.symbol assignmentWord, .symbol name, e]).writes :=
        List.Subset.trans (writes_subset_of_mem (by simp)) (writesAll_subset _)
      have htarget : [name] ⊆ (Expr.list [.symbol assignmentWord, .symbol name, e]).writes := by
        rw [Expr.writes]
        exact List.subset_append_left _ _
      refine ((evaluate_frames h e).mono hvalue).bind fun value => ?_
      exact ((Frames.assign name value).mono htarget).bind fun _ => .pure value
    | _ => exact .fail _
  | _ :: _ :: _ :: _ => .fail _

theorem evaluateAll_frames (h : Host κ σ) :
    ∀ items : List Expr, Frames (writesAll items) (evaluateAll h items)
  | [] => by
    rw [evaluateAll]
    exact .pure _
  | e :: rest => by
    rw [evaluateAll, writesAll]
    refine ((evaluate_frames h e).mono (List.subset_append_left _ _)).bind fun value => ?_
    refine ((evaluateAll_frames h rest).mono (List.subset_append_right _ _)).bind fun values => ?_
    exact .pure _

end

/-! ## Conditions, blocks and turns -/

theorem evaluateCondition_frames (h : Host κ σ) (condition : Expr) :
    Frames condition.writes (evaluateCondition h condition) := by
  refine (evaluate_frames h condition).bind fun v => ?_
  cases v.expectNumber "Condition" with
  | ok x => exact .pure _
  | error cause => exact .fail cause

theorem executeBlock_frames (h : Host κ σ) :
    ∀ code : List Expr, Frames (writesAll code) (executeBlock h code)
  | [] => .pure ()
  | e :: rest => by
    rw [writesAll]
    refine ((evaluate_frames h e).mono (List.subset_append_left _ _)).bind fun _ => ?_
    exact (executeBlock_frames h rest).mono (List.subset_append_right _ _)

end Turn

end Colloquy
