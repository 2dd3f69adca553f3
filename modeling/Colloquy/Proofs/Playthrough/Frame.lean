import Colloquy.Proofs.Dialogue.Targets
import Colloquy.Proofs.Evaluation.Frame
import Colloquy.Proofs.Playthrough.Fresh
import Colloquy.Proofs.Playthrough.Operation

/-!
# What a turn of a dialogue can rebind

The code of a label is what it runs when it is left and what it asks before it offers a choice
(`Label.code`), and `Dialogue.writes` lists the targets of all assignments in the code of a dialogue.
Main statement, `changesOnly_of_leave`: on any host, what a turn hands to the host is what the host
seeded for it, but for the targets in the code of the label that is left.
-/

namespace Colloquy

open NameMap (ChangesOnly)

/-! ## The code of a dialogue -/

/-- All code of a label: the conditions of its choices and its after block. -/
def Label.code (label : Label) : List Expr :=
  (label.choices.getD []).filterMap (·.condition) ++ (label.after.map (·.code)).getD []

/-- The targets of all assignments in the code of a dialogue. -/
def Dialogue.writes (d : Dialogue) : List String :=
  d.labelList.flatMap fun label => Expr.writesAll label.code

theorem Dialogue.writesAll_subset {d : Dialogue} {name : String} {label : Label}
    (h : d.label? name = some label) : Expr.writesAll label.code ⊆ d.writes := by
  intro target htarget
  exact List.mem_flatMap.mpr ⟨label, mem_labelList_of_find h, htarget⟩

namespace Label

variable {label : Label}

theorem writesAll_after {after : After} (h : label.after = some after) :
    Expr.writesAll after.code ⊆ Expr.writesAll label.code := by
  unfold code
  rw [h, Expr.writesAll_append]
  exact List.subset_append_right _ _

theorem writes_condition {choices : List Choice} {choice : Choice} {condition : Expr}
    (hchoices : label.choices = some choices) (hchoice : choice ∈ choices)
    (hcondition : choice.condition = some condition) :
    condition.writes ⊆ Expr.writesAll label.code := by
  apply Expr.writes_subset_of_mem
  unfold code
  rw [hchoices]
  exact List.mem_append_left _ (List.mem_filterMap.mpr ⟨choice, hchoice, hcondition⟩)

end Label

/-! ## Leaving a label -/

variable {κ σ α : Type}

/-- A turn that ends well has rebound only what it frames. -/
theorem Turn.Frames.play_eq_ok {h : Host κ σ} {turn : Turn κ σ α} {names : List String}
    (hframes : turn.Frames names) {s s' : σ} {value : α} {bindings : Bindings κ}
    (hplay : (Turn.play h turn).result s = (.ok (value, bindings), s')) :
    ∃ seeded, h.turnBindings s = .ok seeded ∧ ChangesOnly names seeded bindings := by
  obtain ⟨seeded, hseeded, hturn⟩ := Turn.play_eq_ok hplay
  have hchanges := hframes ⟨seeded, s⟩
  rw [hturn] at hchanges
  exact ⟨seeded, hseeded, hchanges⟩

namespace Playthrough

/-- The bindings that a transition hands to the host. -/
def Transition.bindings? : Transition κ → Option (Bindings κ)
  | .enter _ bindings => some bindings
  | .finish bindings => bindings
  | .stay => none

/-- What is handed to the host when a label is left is what was seeded, but for the targets in the
code of the label. -/
theorem changesOnly_of_leave {h : Host κ σ} {p : Playthrough} {view : View} {label : Label}
    {index : Nat} {s s' : σ} {transition : Transition κ} {bindings : Bindings κ}
    (hleave : (leave h p view label index).result s = (.ok transition, s'))
    (hbindings : transition.bindings? = some bindings) :
    ∃ seeded, h.turnBindings s = .ok seeded ∧
      ChangesOnly (Expr.writesAll label.code) seeded bindings := by
  have hleaving := leaving hleave
  cases hleaving with
  | nothing => cases hbindings
  | @block after final _ hchoices hafter hrun =>
    have hframes := (Turn.executeBlock_frames h after.code).mono (Label.writesAll_after hafter)
    have hfinal : final = bindings := by
      -- the bindings are the same whether there is a next label or none
      cases htarget : after.target with
      | none =>
        rw [htarget] at hbindings
        exact Option.some.inj hbindings
      | some target =>
        rw [htarget] at hbindings
        exact Option.some.inj hbindings
    rw [← hfinal]
    exact hframes.play_eq_ok hrun
  | @choice choices choice isOpen final _ hchoices hpick hrun =>
    cases isOpen with
    | false => cases hbindings
    | true =>
      obtain rfl : final = bindings := Option.some.inj hbindings
      unfold allowed at hrun
      cases hcondition : choice.condition with
      | none =>
        rw [hcondition] at hrun
        exact (Turn.Frames.pure true).play_eq_ok hrun
      | some condition =>
        have hsubset := Label.writes_condition hchoices (mem_of_pick hpick) hcondition
        rw [hcondition] at hrun
        exact ((Turn.evaluateCondition_frames h condition).mono hsubset).play_eq_ok hrun

end Playthrough

end Colloquy
