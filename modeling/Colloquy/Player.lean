import Colloquy.Session

/-!
# Players

A player has a session and a disk for saved games. Both players, the one for lines and the one for
a whole screen, understand the same commands: help, save, load, restart and quit.
-/

namespace Colloquy

/-- A session and the files around it. -/
structure Player where
  session : Session
  disk : Disk

/-- What a player plays, and the file for the saved game. -/
structure Setting where
  scenario : Scenario
  stateFile : String

/-- The commands. -/
inductive PlayerCommand
  | help
  | save
  | load
  | restart
  | quit
deriving DecidableEq, Repr

namespace PlayerCommand

/-- The line that lists the commands. -/
def helpLine : String := "commands: :help :save :load :restart :quit"

/-- The command that a text is. -/
def ofText? : String → Option PlayerCommand
  | ":help" => some help
  | ":save" => some save
  | ":load" => some load
  | ":restart" => some restart
  | ":quit" => some quit
  | _ => none

end PlayerCommand

namespace Player

/-- An action on the files. -/
def onDisk {α : Type} (a : Action Disk α) : Action Player α :=
  a.within (·.disk) fun player disk => { player with disk }

/-- An action on the session. -/
def onSession {α : Type} (a : Action Session α) : Action Player α :=
  a.within (·.session) fun player session => { player with session }

/-- Carries out a command and gives the line that tells about it. -/
def command (s : Setting) : PlayerCommand → Action Player String
  | .help => pure PlayerCommand.helpLine
  | .save => do
    let player ← get
    onDisk (player.session.saved.write s.stateFile)
    pure s!"saved: {s.stateFile}"
  | .load => do
    let player ← get
    let session ← Action.ofExcept (Session.loadFor player.disk s.stateFile s.scenario)
    set { player with session }
    pure s!"loaded: {s.stateFile}"
  | .restart => do
    let player ← get
    let indexing := player.session.game.play.indexing
    let session ← Action.ofExcept (Session.create s.scenario indexing)
    set { player with session }
    pure "restarted"
  | .quit => pure "bye"

end Player

end Colloquy
