import Colloquy.Player
import Colloquy.Screen

/-!
# Keys

Up and down move the mark, enter submits the marked choice or, while a line is being typed, shows
the rest of it. Letters save, load, restart, show help and quit.
-/

namespace Colloquy

/-- A key press. -/
inductive Key
  | up
  | down
  | enter
  | escape
  | char (c : Char) (control : Bool)
  | other
deriving DecidableEq

/-- The full-screen player: its screen and the player behind it. -/
structure FullScreen where
  screen : Screen
  player : Player

namespace FullScreen

/-- The full-screen player as a game starts. -/
def start (status : String) (player : Player) : FullScreen :=
  ⟨((Screen.blank status).replace player.session.boundary).withHost player.session.game.host,
    player⟩

/-- An action of the player behind the screen. -/
def onPlayer {α : Type} (a : Action Player α) : Action FullScreen α :=
  a.within (·.player) fun f player => { f with player }

/-- Changes the screen. -/
def draw (f : Screen → Screen) : Action FullScreen Unit :=
  modify fun s => { s with screen := f s.screen }

/-- The command that a key stands for. -/
def commandOf? : Key → Option PlayerCommand
  | .char 'r' _ => some .restart
  | .char 's' _ => some .save
  | .char 'l' _ => some .load
  | _ => none

/-- Whether a key ends the player. -/
def quits : Key → Bool
  | .escape => true
  | .char 'q' _ => true
  | .char 'c' control => control
  | _ => false

/-- Carries out a command and shows what came of it. -/
def command (s : Setting) (c : PlayerCommand) : Action FullScreen Unit := do
  let status ← onPlayer (Player.command s c)
  draw (·.withStatus status)
  let session := (← get).player.session
  match c with
  | .restart => draw (·.replace session.boundary)
  | .load => draw (·.append session.boundary)
  | _ => pure ()
  draw (·.withHost session.game.host)

/-- Moves the mark, or says why there is nothing to mark. -/
def move (f : Screen → Screen) : Action FullScreen Unit :=
  draw fun screen =>
    match screen.blocked? with
    | some reason => screen.withStatus reason
    | none => f screen

/-- Submits the marked choice and shows what came of it. -/
def submit : Action FullScreen Unit := do
  let screen := (← get).screen
  match screen.choices[screen.selected]? with
  | none => throw (.host "TUI_CHOICE_PARSE" "No choices available")
  | some (index, text) =>
    match ← (onPlayer (Player.onSession (Session.submit index))).attempt with
    | .ok .ignored => draw (·.withStatus s!"\"{text}\" is not available")
    | .ok _ => do
      let session := (← get).player.session
      draw (·.append session.boundary)
      draw (·.withHost session.game.host)
      draw (·.withStatus s!"chose {text}")
    | .error fault =>
      if fault.kind = .indexOutOfRange then draw (·.withStatus fault.message) else throw fault

/-- Shows the rest of the text, or submits, or says why neither can be done. -/
def enter : Action FullScreen Unit := do
  let screen := (← get).screen
  if screen.isTyping then draw (·.finish)
  else match screen.blocked? with
    | some reason => draw (·.withStatus reason)
    | none => submit

/-- Takes a key; whether it ends the player. -/
def press (s : Setting) (key : Key) : Action FullScreen Bool :=
  if quits key then pure true
  else do
    match commandOf? key with
    | some c => command s c
    | none =>
      match key with
      | .char 'h' _ => draw fun screen => { screen with helpVisible := !screen.helpVisible }
      | .up => move (·.up)
      | .down => move (·.down)
      | .enter => enter
      | _ => pure ()
    pure false

end FullScreen

end Colloquy
