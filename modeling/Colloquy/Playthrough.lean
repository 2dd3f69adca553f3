import Colloquy.Dialogue
import Colloquy.Evaluation

/-!
# Playing a dialogue

A playthrough is at a label, whose prompt and open choices it shows, or has ended. The choices
shown are those whose condition held when the label was entered or last refreshed. A label without
declared choices shows a single one, to continue.

Submitting a choice is one transaction. The turn is run, the next label is built against the
host as it stands, and only then does the host absorb the turn's bindings; after that the label is
built once more, and should this fail the first view of it is kept. So a submission that fails
neither moves the player nor lets the host absorb anything.
-/

namespace Colloquy

/-- What the index of a submission counts. -/
inductive Indexing
  /-- The declared choices of the label, hidden ones included. -/
  | declared
  /-- The choices as shown. -/
  | visible
deriving DecidableEq, Repr

/-- What the player sees at a label. -/
structure View where
  label : String
  prompt : String
  choices : List String
  /-- The place of each shown choice among the declared ones; empty if none is declared. -/
  places : List Nat
deriving DecidableEq

/-- A dialogue being played. -/
structure Playthrough where
  dialogue : Dialogue
  indexing : Indexing
  /-- What is shown, or nothing once the dialogue has ended. -/
  view : Option View

/-- What became of a submission. -/
inductive Outcome
  | entered (label : String)
  | ended
  /-- The condition of the choice does not hold any more: nothing happened. -/
  | ignored
deriving DecidableEq

/-- A place in a dialogue, to come back to. -/
structure Snapshot where
  schema : String
  label : Option String
  indexing : Indexing
deriving DecidableEq

/-- A playthrough and the state of its host. -/
structure Game (σ : Type) where
  play : Playthrough
  host : σ

namespace Playthrough

variable {κ σ : Type}

/-- The choice shown where none is declared. -/
def continueText : String := "Continue..."

/-- The label with the given name, which has to be declared. -/
def resolve (d : Dialogue) (name : String) : Except Fault Label :=
  match d.label? name with
  | some label => .ok label
  | none => .error (.play (.unknownLabel name))

/-- Whether a choice is open, by a turn of its own; the bindings are those the turn ends with. -/
def allowed (h : Host κ σ) (choice : Choice) : Action σ (Bool × Bindings κ) :=
  Turn.play h (match choice.condition with
    | some condition => Turn.evaluateCondition h condition
    | none => pure true)

/-- The open choices among some that are declared from a given place on. -/
def openChoices (h : Host κ σ) : Nat → List Choice → Action σ (List (Nat × String))
  | _, [] => pure []
  | place, choice :: rest => do
    let (isOpen, _) ← allowed h choice
    let others ← openChoices h (place + 1) rest
    pure (if isOpen then (place, choice.text) :: others else others)

/-- The view of a label. -/
def viewOf (h : Host κ σ) (label : Label) : Action σ View :=
  match label.choices with
  | none => pure ⟨label.name, label.text, [continueText], []⟩
  | some choices => do
    let shown ← openChoices h 0 choices
    pure ⟨label.name, label.text, shown.map (·.2), shown.map (·.1)⟩

/-- The view of the label with the given name. -/
def build (h : Host κ σ) (d : Dialogue) (name : String) : Action σ View := do
  viewOf h (← Action.ofExcept (resolve d name))

/-- A playthrough that is at the given label, or ended if there is none. -/
def begin (h : Host κ σ) (d : Dialogue) (indexing : Indexing) :
    Option String → Action σ Playthrough
  | none => pure ⟨d, indexing, none⟩
  | some name => do
    let view ← build h d name
    pure ⟨d, indexing, some view⟩

/-- A playthrough at the first label. -/
def start (h : Host κ σ) (d : Dialogue) (indexing : Indexing) : Action σ Playthrough :=
  begin h d indexing (some d.initial)

/-- Refuses a snapshot of another schema or at a label that the dialogue does not have. -/
def checkSnapshot (d : Dialogue) (s : Snapshot) : Except Fault Unit :=
  if s.schema ≠ snapshotSchema then .error (.play (.snapshotSchema s.schema))
  else match s.label with
    | none => .ok ()
    | some name =>
      if d.labels.contains name then .ok () else .error (.play (.snapshotLabel name))

/-- A playthrough at the place of a snapshot. -/
def resume (h : Host κ σ) (d : Dialogue) (s : Snapshot) : Action σ Playthrough := do
  Action.ofExcept (checkSnapshot d s)
  begin h d s.indexing s.label

/-- The place of a playthrough. -/
def snapshot (p : Playthrough) : Snapshot := ⟨snapshotSchema, p.view.map (·.label), p.indexing⟩

/-- Whether the dialogue has ended. -/
def isEnded (p : Playthrough) : Bool := p.view.isNone

/-- The shown choices. -/
def choices (p : Playthrough) : List String := (p.view.map (·.choices)).getD []

/-- The shown choices, each with the index to submit for it. -/
def indexedChoices (p : Playthrough) : List (Nat × String) :=
  match p.view with
  | none => []
  | some view => view.choices.mapIdx fun place text =>
    match p.indexing with
    | .declared => (view.places[place]?.getD place, text)
    | .visible => (place, text)

/-! ## Submitting a choice -/

/-- Where a turn leads, with the bindings for the host. -/
inductive Transition (κ : Type)
  | enter (target : String) (bindings : Bindings κ)
  /-- The dialogue ends; without an after block no turn was run. -/
  | finish (bindings : Option (Bindings κ))
  | stay

/-- Leaves a label that declares no choices. -/
def continueFrom (h : Host κ σ) (label : Label) (index : Nat) : Action σ (Transition κ) :=
  if index ≠ 0 then throw (.play (.indexOutOfRange label.name index 1))
  else match label.after with
    | none => pure (.finish none)
    | some after => do
      let ((), bindings) ← Turn.play h (Turn.executeBlock h after.code)
      pure (match after.target with
        | some target => .enter target bindings
        | none => .finish (some bindings))

/-- The declared choice that an index stands for. -/
def pick (indexing : Indexing) (view : View) (choices : List Choice) (index : Nat) :
    Except Fault Choice :=
  let outOfRange (count : Nat) : Except Fault Choice :=
    .error (.play (.indexOutOfRange view.label index count))
  let declared (place : Nat) : Except Fault Choice :=
    match choices[place]? with
    | some choice => .ok choice
    | none => outOfRange choices.length
  match indexing with
  | .declared => declared index
  | .visible =>
    match view.places[index]? with
    | some place => declared place
    | none => outOfRange view.places.length

/-- Leaves a label by one of its declared choices, if that is still open. -/
def choose (h : Host κ σ) (indexing : Indexing) (view : View) (choices : List Choice)
    (index : Nat) : Action σ (Transition κ) := do
  let choice ← Action.ofExcept (pick indexing view choices index)
  let (isOpen, bindings) ← allowed h choice
  pure (if isOpen then .enter choice.target bindings else .stay)

/-- Goes to a label: its view is built, the host absorbs, and the view is built anew. -/
def commit (h : Host κ σ) (d : Dialogue) (target : String) (bindings : Bindings κ) :
    Action σ View := do
  let staged ← build h d target
  h.absorb bindings
  -- The host has changed, so from here on nothing may fail any more.
  match ← (build h d target).attempt with
  | .ok view => pure view
  | .error _ => pure staged

end Playthrough

namespace Game

variable {κ σ : Type}

/-- An action of the host inside a game. -/
def onHost {α : Type} (a : Action σ α) : Action (Game σ) α :=
  a.within (·.host) fun game host => { game with host }

/-- Shows a view, or ends the dialogue. -/
def display (view : Option View) : Action (Game σ) Unit :=
  modify fun game => { game with play := { game.play with view } }

/-- Goes to the label with the given name. -/
def enter (h : Host κ σ) (name : String) : Action (Game σ) Unit := do
  let play := (← get).play
  let view ← onHost (Playthrough.build h play.dialogue name)
  display (some view)

/-- What is shown, which there must be. -/
def currentView : Action (Game σ) View := do
  match (← get).play.view with
  | some view => pure view
  | none => throw (.play .ended)

/-- Builds the view of the current label anew. -/
def refresh (h : Host κ σ) : Action (Game σ) Unit := do
  let view ← currentView
  enter h view.label

/-- Submits the choice with the given index. -/
def submit (h : Host κ σ) (index : Nat) : Action (Game σ) Outcome := do
  let view ← currentView
  let play := (← get).play
  let label ← Action.ofExcept (Playthrough.resolve play.dialogue view.label)
  let transition ← onHost (match label.choices with
    | none => Playthrough.continueFrom h label index
    | some choices => Playthrough.choose h play.indexing view choices index)
  match transition with
  | .enter target bindings => do
    let view ← onHost (Playthrough.commit h play.dialogue target bindings)
    display (some view)
    pure (.entered target)
  | .finish bindings => do
    match bindings with
    | some bindings => onHost (h.absorb bindings)
    | none => pure ()
    display none
    pure .ended
  | .stay => pure .ignored

end Game

end Colloquy
