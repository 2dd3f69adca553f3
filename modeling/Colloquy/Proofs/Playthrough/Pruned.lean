import Colloquy.Dialogue.Diagnostic
import Colloquy.Proofs.NameMap
import Colloquy.Proofs.Playthrough.Coupling

/-!
# After blocks that never run

A label that declares choices is left by one of them, so the after block that it may have beside
them never runs. Here this is said of whole runs: the dialogue with these blocks dropped
(`Dialogue.pruned`) is played like the dialogue itself. A game and the same game of the pruned
dialogue are coupled (`coupling_pruned`), every operation is in step on them (`act_pruned`), and so
whatever can be observed of a run is the same in both. Main statement, `observe_pruned`, with the
labels that lose their block: those with the remark on an unreachable block, and no others.
-/

namespace Colloquy

open Colloquy.Action (InStep)

variable {κ σ : Type}

/-! ## Dropping the blocks -/

/-- The label without an after block that its choices keep from running. -/
def Label.pruned (label : Label) : Label :=
  if label.offersChoices then { label with after := none } else label

/-- The dialogue with such blocks dropped from all labels. -/
def Dialogue.pruned (d : Dialogue) : Dialogue :=
  { d with labels := d.labels.mapValues fun _ label => label.pruned }

/-- The same place in the pruned dialogue. -/
def Playthrough.pruned (p : Playthrough) : Playthrough := { p with dialogue := p.dialogue.pruned }

/-- The same game of the pruned dialogue. -/
def Game.pruned (game : Game σ) : Game σ := { game with play := game.play.pruned }

namespace Label

@[simp] theorem name_pruned (label : Label) : label.pruned.name = label.name := by
  unfold pruned
  split <;> rfl

@[simp] theorem text_pruned (label : Label) : label.pruned.text = label.text := by
  unfold pruned
  split <;> rfl

@[simp] theorem choices_pruned (label : Label) : label.pruned.choices = label.choices := by
  unfold pruned
  split <;> rfl

theorem pruned_of_no_choices {label : Label} (h : label.choices = none) : label.pruned = label := by
  unfold pruned offersChoices
  rw [h]
  rfl

/-- Just the labels with an unreachable block are changed, and these are remarked on. -/
theorem pruned_ne_iff_remark {d : Dialogue} {label : Label} :
    label.pruned ≠ label ↔ Diagnostic.unreachableAfter label.name ∈ Diagnostic.ofLabel d label := by
  have hremark : Diagnostic.unreachableAfter label.name ∈ Diagnostic.ofLabel d label ↔
      label.choices.isSome ∧ label.after.isSome := by
    simp [Diagnostic.ofLabel, Diagnostic.unreachableAfter, Diagnostic.danglingTarget]
  obtain ⟨name, text, choices, after⟩ := label
  rw [hremark]
  cases choices <;> cases after <;> simp [pruned, offersChoices]

end Label

theorem Dialogue.label?_pruned (d : Dialogue) (name : String) :
    d.pruned.label? name = (d.label? name).map Label.pruned :=
  NameMap.find?_mapValues _ d.labels name

theorem Dialogue.contains_pruned (d : Dialogue) (name : String) :
    d.pruned.labels.contains name = d.labels.contains name := by
  show (d.pruned.label? name).isSome = (d.label? name).isSome
  rw [label?_pruned, Option.isSome_map]

/-! ## Playing the pruned dialogue -/

namespace Playthrough

theorem checkSnapshot_pruned (d : Dialogue) (snapshot : Snapshot) :
    checkSnapshot d.pruned snapshot = checkSnapshot d snapshot := by
  unfold checkSnapshot
  simp only [Dialogue.contains_pruned]

theorem viewOf_pruned (h : Host κ σ) (label : Label) : viewOf h label.pruned = viewOf h label := by
  unfold viewOf
  rw [Label.choices_pruned, Label.name_pruned, Label.text_pruned]

/-- A label is left as before: by its choices if it declares some, and otherwise by its block, which
it then still has. -/
theorem leave_pruned (h : Host κ σ) (p : Playthrough) (view : View) (label : Label) (index : Nat) :
    leave h p.pruned view label.pruned index = leave h p view label index := by
  cases hchoices : label.choices with
  | none =>
    rw [Label.pruned_of_no_choices hchoices]
    rfl
  | some choices =>
    unfold leave
    rw [Label.choices_pruned, hchoices]
    rfl

theorem agree_resolve_pruned (d : Dialogue) (name : String) :
    Agree (fun label label' => label' = label.pruned) (resolve d name) (resolve d.pruned name) := by
  unfold resolve
  rw [Dialogue.label?_pruned]
  cases d.label? name with
  | none => exact .error _
  | some label => exact .ok rfl

theorem build_pruned (h : Host κ σ) (d : Dialogue) (name : String) :
    InStep (· = ·) (· = ·) (build h d name) (build h d.pruned name) := by
  refine (InStep.ofExcept (agree_resolve_pruned d name)).bind fun label label' hlabel => ?_
  rw [hlabel, viewOf_pruned]
  exact .refl _

theorem begin_pruned (h : Host κ σ) (d : Dialogue) (indexing : Indexing) (label : Option String) :
    InStep (· = ·) (fun p q => q = p.pruned) (begin h d indexing label)
      (begin h d.pruned indexing label) := by
  cases label with
  | none => exact .pure rfl
  | some name =>
    refine (build_pruned h d name).bind fun view view' hview => ?_
    rw [hview]
    exact .pure rfl

theorem resume_pruned (h : Host κ σ) (d : Dialogue) (snapshot : Snapshot) :
    InStep (· = ·) (fun p q => q = p.pruned) (resume h d snapshot) (resume h d.pruned snapshot) := by
  unfold resume
  rw [checkSnapshot_pruned]
  refine (InStep.ofExcept (Agree.refl (R := (· = ·)) (fun _ => rfl) _)).bind fun _ _ _ => ?_
  exact begin_pruned h d _ _

end Playthrough

namespace Game

theorem coupling_pruned :
    Coupling (· = ·) fun (a b : Game σ) => b = a.pruned where
  view := by
    rintro a _ rfl
    rfl
  host := by
    rintro a _ rfl
    rfl
  played := by
    rintro a _ s _ rfl rfl
    rfl
  shown := by
    rintro a _ rfl view
    rfl

/-- Every operation gives the same answer on the pruned dialogue, and keeps both games at the same
place and their hosts in the same state. -/
theorem act_pruned (h : Host κ σ) (operation : Operation) :
    InStep (fun a b => b = a.pruned) (· = ·) (act h operation) (act h operation) := by
  have hbuild : ∀ {a b : Game σ}, b = a.pruned → ∀ name, InStep (· = ·) (· = ·)
      (Playthrough.build h a.play.dialogue name) (Playthrough.build h b.play.dialogue name) := by
    rintro a _ rfl name
    exact Playthrough.build_pruned h a.play.dialogue name
  have hplay : ∀ {a b : Game σ} {p q : Playthrough}, b = a.pruned → q = p.pruned →
      ({ b with play := q } : Game σ) = pruned { a with play := p } := by
    rintro a _ p _ rfl rfl
    rfl
  cases operation with
  | start indexing =>
    refine (coupling_pruned.replace ?_ hplay).bind fun _ _ _ => .pure rfl
    rintro a _ rfl
    exact Playthrough.begin_pruned h a.play.dialogue indexing _
  | resume snapshot =>
    refine (coupling_pruned.replace ?_ hplay).bind fun _ _ _ => .pure rfl
    rintro a _ rfl
    exact Playthrough.resume_pruned h a.play.dialogue snapshot
  | enter label => exact (coupling_pruned.enter hbuild label).bind fun _ _ _ => .pure rfl
  | refresh => exact (coupling_pruned.refresh hbuild).bind fun _ _ _ => .pure rfl
  | submit index =>
    have hsubmit : InStep (fun a b => b = a.pruned) (· = ·) (submit h index) (submit h index) := by
      refine coupling_pruned.submit hbuild (fun _ => .refl _) ?_
      -- the one place where the blocks would count: the label that is left has lost its own
      rintro a _ rfl view
      refine Agree.mono ?_ (Playthrough.agree_resolve_pruned a.play.dialogue view.label)
      rintro label _ rfl
      rw [show a.pruned.play = a.play.pruned from rfl, Playthrough.leave_pruned]
      exact .refl _
    exact hsubmit.bind fun _ _ houtcome => .pure (by rw [houtcome])

/-! ## What can be observed -/

/-- What can be observed of an operation: its answer, and after it what is shown, the choices with
their indices, the place to come back to and the state of the host. -/
structure Observation (σ : Type) where
  answer : Except Fault (Option Outcome)
  view : Option View
  choices : List (Nat × String)
  snapshot : Snapshot
  host : σ

/-- What can be observed of a list of operations, each of which may fail. -/
def observe (h : Host κ σ) : List Operation → Game σ → List (Observation σ)
  | [], _ => []
  | operation :: rest, game =>
    let (answer, after) := (act h operation).result game
    ⟨answer, after.play.view, after.play.indexedChoices, after.play.snapshot, after.host⟩ ::
      observe h rest after

theorem observe_of_pruned (h : Host κ σ) : ∀ (operations : List Operation) (game : Game σ),
    observe h operations game.pruned = observe h operations game
  | [], _ => rfl
  | operation :: rest, game => by
    obtain ⟨hanswer, hafter⟩ := act_pruned h operation game _ rfl
    unfold observe
    dsimp only
    rw [← hanswer.eq, hafter, observe_of_pruned h rest]
    rfl

/-- **Unreachable blocks can be removed.** On any host, in either way of counting and from any place
of a dialogue, a list of operations is observed alike on the dialogue and on the one whose labels
with choices have no after block. The labels that are changed are those with the remark on it. -/
theorem observe_pruned (d : Dialogue) :
    (∀ label, label.pruned ≠ label ↔
      Diagnostic.unreachableAfter label.name ∈ Diagnostic.ofLabel d label) ∧
    ∀ (h : Host κ σ) (indexing : Indexing) (view : Option View) (s : σ)
      (operations : List Operation),
      observe h operations ⟨⟨d.pruned, indexing, view⟩, s⟩
        = observe h operations ⟨⟨d, indexing, view⟩, s⟩ := by
  refine ⟨fun label => Label.pruned_ne_iff_remark, fun h indexing view s operations => ?_⟩
  exact observe_of_pruned h operations ⟨⟨d, indexing, view⟩, s⟩

end Game

end Colloquy
