import Colloquy.Player
import Colloquy.Text.Index

/-!
# Playing line by line

The line player shows the boundary, asks for a line and answers it: a command is carried out, an
index is submitted, and anything else is refused. It asks again until something has moved the
game, and then shows the new boundary. It stops at the end of the dialogue, at the end of its
input, on the command to quit, or on a fault that is more than an index out of range.
-/

namespace Colloquy.LinePlayer

/-- What follows the answer to a line. -/
inductive Next
  /-- Ask again. -/
  | again
  /-- Show the boundary. -/
  | redraw
  | stop
deriving DecidableEq

/-- The lines that show a boundary. -/
def boundaryLines : Boundary → List String
  | .finished => ["", "[END]"]
  | .choices _ prompt choices =>
    ["", prompt] ++ choices.map fun choice => s!"  [{choice.1}] {choice.2}"

/-- The lines shown before the game. -/
def openingLines (s : Setting) : List String := [s.scenario.title, PlayerCommand.helpLine]

/-- What follows a command. -/
def afterCommand : PlayerCommand → Next
  | .help | .save => .again
  | .load | .restart => .redraw
  | .quit => .stop

/-- The line as typed, without the marks at its end. -/
def withoutLineEnd (line : String) : String :=
  String.ofList (line.toList.reverse.dropWhile fun c => c = '\r' || c = '\n').reverse

/-- Submits an index: the lines to show and what follows. -/
def submit (index : Nat) : Action Player (List String × Next) := do
  match ← (Player.onSession (Session.submit index)).attempt with
  | .ok .ignored => pure (["that choice is not available"], .again)
  | .ok _ => pure ([], .redraw)
  | .error fault =>
    if fault.kind = .indexOutOfRange then pure ([fault.message], .again) else throw fault

/-- Answers a line: the lines to show and what follows. -/
def answer (s : Setting) (raw : String) : Action Player (List String × Next) :=
  match PlayerCommand.ofText? (trim raw) with
  | some command => do
    let line ← Player.command s command
    pure ([line], afterCommand command)
  | none =>
    match index? (trim raw) with
    | some index => submit index
    | none => pure ([s!"not a choice: {raw}"], .again)

/-- Lines of output. -/
def linesText (lines : List String) : String := String.join (lines.map (· ++ "\n"))

/-- How a game of lines stands after some input. -/
structure Progress where
  player : Player
  /-- Everything shown so far. -/
  output : String
  /-- Whether the game is over, and how. -/
  verdict : Option (Except Fault Unit)

/-- Shows more. -/
def Progress.write (p : Progress) (text : String) : Progress :=
  { p with output := p.output ++ text }

/-- What asks for a line. -/
def promptText : String := "> "

/-- Shows the boundary, and asks for a line unless the dialogue has ended. -/
def Progress.showBoundary (p : Progress) : Progress :=
  let boundary := p.player.session.boundary
  let p := p.write (linesText (boundaryLines boundary))
  match boundary with
  | .finished => { p with verdict := some (.ok ()) }
  | .choices .. => p.write promptText

/-- How a game starts. -/
def begin (s : Setting) (player : Player) : Progress :=
  Progress.showBoundary ⟨player, linesText (openingLines s), none⟩

/-- Takes a line of input, unless the game is over. -/
def Progress.take (s : Setting) (p : Progress) (line : String) : Progress :=
  match p.verdict with
  | some _ => p
  | none =>
    match (answer s (withoutLineEnd line)).result p.player with
    | (.error fault, player) => { p with player, verdict := some (.error fault) }
    | (.ok (lines, next), player) =>
      let p := { p with player }.write (linesText lines)
      match next with
      | .again => p.write promptText
      | .redraw => p.showBoundary
      | .stop => { p with verdict := some (.ok ()) }

/-- The lines of an input, the last one even if nothing ends it. -/
def linesOf (cs : List Char) : List String :=
  let line := cs.takeWhile (· ≠ '\n')
  match h : cs.dropWhile (· ≠ '\n') with
  | [] => if line = [] then [] else [String.ofList line]
  | _ :: rest =>
    have : rest.length < cs.length := by
      have := (List.dropWhile_suffix (l := cs) (· ≠ '\n')).length_le
      rw [h, List.length_cons] at this
      omega
    String.ofList line :: linesOf rest
termination_by cs.length

/-- A whole game: all that is shown, the verdict (stopping, if the input ends first) and the
player as the game leaves it. -/
def run (s : Setting) (player : Player) (input : String) : String × Except Fault Unit × Player :=
  let p := (linesOf input.toList).foldl (Progress.take s) (begin s player)
  (p.output, p.verdict.getD (.ok ()), p.player)

end Colloquy.LinePlayer
