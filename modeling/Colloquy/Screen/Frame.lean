import Colloquy.Screen
import Colloquy.Screen.Row
import Colloquy.Text.Width

/-!
# Composing the screen

A frame is the lines of the screen from top to bottom: four lines about the game, the last rows of
the transcript that fit, a divider, five lines for the choices, the place of the window, the keys
and, if asked for, a line of help. No line is wider than the content, which leaves two columns
free.

`Screen.picture` is the rows as a terminal shows them, as far as its height goes. A line may take
more than one of them, and pushes the lines below it down.
-/

namespace Colloquy

namespace Screen

/-- The width of the content. -/
def contentWidth (width : Nat) : Nat := max (width - 2) 16

/-- The transcript as far as it is typed. -/
def transcript (s : Screen) : List String :=
  s.rendered ++ (s.typing.map fun line => String.ofList (line.toList.take s.typed)).toList

/-- The rows of the transcript. -/
def transcriptRows (s : Screen) (width : Nat) : List String :=
  s.transcript.flatMap (wrap (contentWidth width))

/-- How many lines are not transcript. -/
def reservedLines (s : Screen) : Nat :=
  4 + 1 + windowSize + 1 + 1 + (if s.helpVisible then 1 else 0)

/-- The last rows of the transcript, as many as fit. -/
def visibleRows (s : Screen) (width height : Nat) : List String :=
  let rows := s.transcriptRows width
  rows.drop (rows.length - max (height - s.reservedLines) 1)

/-- Whether the choices are shown. -/
def showsChoices (s : Screen) : Bool := !s.isTyping && !s.choices.isEmpty

/-- One row of the window, with the text of its choice or blank. -/
def choiceLine (s : Screen) (width row : Nat) : FrameLine :=
  let place := s.scroll + row
  match if s.showsChoices then s.choices[place]? else none with
  | some (_, text) =>
    let text := truncate (max (contentWidth width - 2) 8) text
    if place = s.selected then .styled .green ("> " ++ text) else .styled .plain ("  " ++ text)
  | none => .styled .plain "   "

/-- The place of the window among more choices than it holds, or that the dialogue has ended. -/
def windowText (s : Screen) (width : Nat) : String :=
  let count := s.choices.length
  if s.showsChoices ∧ windowSize < count then
    truncate (contentWidth width)
      s!"window {s.scroll + 1}-{min (s.scroll + windowSize) count} / {count}"
  else if s.ended then "[end]"
  else " "

/-- The line about the keys. -/
def keysText : String :=
  "keys: up/down move | enter choose | s save | l load | r restart | h help | q quit"

/-- The line of help. -/
def helpText : String :=
  "saves hold the current label and host state; loading re-evaluates choice conditions."

/-- The lines of the screen, for a terminal of the given size. -/
def frame (s : Screen) (scenario : Scenario) (stateFile : String) (width height : Nat) :
    List FrameLine :=
  let fit := truncate (contentWidth width)
  [.ofText (fit s!"{scenario.id} | {scenario.title}"),
    .styled .gray (fit s!"state: {stateFile}"),
    .styled .gray (fit s!"host: {s.hostSummary}"),
    .styled .gray (fit s!"status: {s.status}")] ++
  (s.visibleRows width height).map .ofText ++
  [.styled .gray (String.ofList (List.replicate (contentWidth width) '─'))] ++
  (List.range windowSize).map (s.choiceLine width) ++
  [.styled .gray (s.windowText width), .styled .yellow (fit keysText)] ++
  (if s.helpVisible then [.styled .magenta (fit helpText)] else [])

/-- The rows that a terminal of the given size shows. -/
def picture (s : Screen) (scenario : Scenario) (stateFile : String) (width height : Nat) :
    List Row :=
  ((s.frame scenario stateFile width height).flatMap (·.rows width)).take height

end Screen

end Colloquy
