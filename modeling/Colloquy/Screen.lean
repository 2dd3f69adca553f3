import Colloquy.Session
import Colloquy.Text.Blank

/-!
# The screen of the full-screen player

The screen keeps a transcript: lines that are fully shown, a line that is being typed out, and
lines still to come. Below it stand the choices, with one of them marked, and a window of five of
them that follows the mark. `advance` types one more character; it has nothing to do only when
everything is shown, and `finish` does all that is left at once.
-/

namespace Colloquy

/-- What the full-screen player shows. -/
structure Screen where
  /-- The lines that are fully shown, oldest first. -/
  rendered : List String
  /-- The lines still to be typed. -/
  pending : List String
  /-- The line being typed. -/
  typing : Option String
  /-- How many characters of it are shown. -/
  typed : Nat
  /-- The choices, each with the index to submit for it. -/
  choices : List (Nat × String)
  /-- The place of the marked choice. -/
  selected : Nat
  /-- The place of the first choice in the window. -/
  scroll : Nat
  ended : Bool
  helpVisible : Bool
  hostSummary : String
  status : String
deriving DecidableEq

namespace Screen

/-- How many choices the window holds. -/
def windowSize : Nat := 5

/-- A screen that shows nothing but a status. -/
def blank (status : String) : Screen where
  rendered := []
  pending := []
  typing := none
  typed := 0
  choices := []
  selected := 0
  scroll := 0
  ended := false
  helpVisible := false
  hostSummary := ""
  status := status

/-- Whether there are lines not yet fully shown. -/
def isTyping (s : Screen) : Bool := s.typing.isSome || !s.pending.isEmpty

/-- The lines that a boundary adds to the transcript. Choices without a prompt, which would add
nothing, are no boundary: `Playthrough.boundary` takes choices and prompt from one view. -/
def boundaryLines : Boundary → List String
  | .finished => ["", "[END]"]
  | .choices _ prompt _ => ["", prompt]

/-- Shows the choices of a boundary, with the first one marked. -/
def withChoices (s : Screen) : Boundary → Screen
  | .finished => { s with choices := [], ended := true, selected := 0, scroll := 0 }
  | .choices _ _ choices => { s with choices, ended := false, selected := 0, scroll := 0 }

/-- Goes on with a boundary after what is there. -/
def append (s : Screen) (boundary : Boundary) : Screen :=
  { s with pending := s.pending ++ boundaryLines boundary }.withChoices boundary

/-- Starts over with a boundary. -/
def replace (s : Screen) (boundary : Boundary) : Screen :=
  { s with rendered := [], pending := boundaryLines boundary, typing := none, typed := 0 }
    |>.withChoices boundary

/-- A line about the state of the sandbox. -/
def hostLine (host : Sandbox.State) : String :=
  let vars := host.vars.entries.map fun v => s!"{v.1}={Number.text v.2}"
  trimEnd (s!"pawn {host.pawn.text} " ++ " ".intercalate vars)

/-- Shows the state of the sandbox. -/
def withHost (s : Screen) (host : Sandbox.State) : Screen := { s with hostSummary := hostLine host }

/-- Shows a status. -/
def withStatus (s : Screen) (status : String) : Screen := { s with status }

/-! ## Typing -/

/-- Types one more character, or takes up or puts away a line; nothing if all is shown. -/
def advance (s : Screen) : Option Screen :=
  match s.typing with
  | none =>
    match s.pending with
    | [] => none
    | line :: rest =>
      if line = "" then some { s with pending := rest, rendered := s.rendered ++ [line] }
      else some { s with pending := rest, typing := some line, typed := 1 }
  | some line =>
    if line.toList.length ≤ s.typed then
      some { s with rendered := s.rendered ++ [line], typing := none, typed := 0 }
    else some { s with typed := s.typed + 1 }

/-- How often the screen advances to show the given lines. -/
def linesWork : List String → Nat
  | [] => 0
  | line :: rest => line.toList.length + 1 + linesWork rest

/-- How often the screen can still advance. -/
def workLeft (s : Screen) : Nat :=
  (match s.typing with
    | some line => line.toList.length - s.typed + 1
    | none => 0) + linesWork s.pending

theorem workLeft_of_advance {s t : Screen} (h : s.advance = some t) :
    s.workLeft = t.workLeft + 1 := by
  unfold advance at h
  split at h
  · rename_i hty
    split at h
    · simp at h
    · rename_i line rest hp
      split at h
      · rename_i hl
        obtain rfl := Option.some.inj h
        simp [workLeft, linesWork, hty, hp, hl]
        omega
      · rename_i hl
        obtain rfl := Option.some.inj h
        have : line.toList.length ≠ 0 := by
          intro h0
          exact hl (String.toList_eq_nil_iff.mp (List.length_eq_zero_iff.mp h0))
        simp only [workLeft, hty, hp, linesWork]
        omega
  · rename_i line hty
    split at h
    · obtain rfl := Option.some.inj h
      simp only [workLeft, hty]
      omega
    · obtain rfl := Option.some.inj h
      simp only [workLeft, hty]
      omega

/-- Shows all that is left. -/
def finish (s : Screen) : Screen :=
  match h : s.advance with
  | none => s
  | some t =>
    have := workLeft_of_advance h
    finish t
termination_by s.workLeft

/-! ## Choosing -/

/-- Why there is nothing to choose, if there is not. -/
def blocked? (s : Screen) : Option String :=
  if s.isTyping then some "text streaming..."
  else if s.ended then some "the dialogue has ended"
  else if s.choices.isEmpty then some "no pending choice"
  else none

/-- Marks the choice above; the window follows. -/
def up (s : Screen) : Screen :=
  let selected := s.selected - 1
  { s with selected, scroll := if selected < s.scroll then selected else s.scroll }

/-- Marks the choice below, if there is one; the window follows. -/
def down (s : Screen) : Screen :=
  let selected := min (s.selected + 1) (s.choices.length - 1)
  let follows := windowSize < s.choices.length ∧ s.scroll + windowSize ≤ selected
  { s with selected, scroll := if follows then selected - windowSize + 1 else s.scroll }

end Screen

end Colloquy
