import Colloquy.Command.Arguments
import Colloquy.Dialogue.Document
import Colloquy.LinePlayer

/-!
# Running commands

Commands for programs rather than people write lines of the form `KEY:value`; values that could
hold anything are written as JSON. The agent's commands save the game only where there is
something left to choose, and before they write anything. A fault is three lines and the exit
code one; arguments that are no command have the exit code two.
-/

namespace Colloquy.Command

/-- What a command writes and how it ends. -/
structure Output where
  text : String
  code : Nat
deriving DecidableEq

/-- The JSON text of a string. -/
def jsonText (text : String) : String := (Json.text text).compact

/-- The lines that tell about a fault. -/
def faultLines (fault : Fault) : List String :=
  ["RESULT:ERROR", s!"ERROR_CODE:{fault.code}", s!"ERROR_MSG_JSON:{jsonText fault.message}"]

/-- The lines that tell about a boundary, the state of the sandbox and where the game is saved. -/
def boundaryLines (boundary : Boundary) (host : Sandbox.State) (stateOut : Option String) :
    List String :=
  (match boundary with
    | .choices label prompt choices =>
      ["RESULT:OK", "EVENT:CHOICES", s!"LABEL:{label}", s!"PROMPT_JSON:{jsonText prompt}"] ++
        choices.map fun choice => s!"CHOICE:{choice.1}|{jsonText choice.2}"
    | .finished => ["RESULT:OK", "EVENT:END"]) ++
  ["HOST_JSON:" ++ host.toJson.compact, "STATE_OUT:" ++ stateOut.getD "NONE"]

/-- Saves a session if there is something left to choose, and tells where it stands. -/
def report (session : Session) (stateOut : String) : Action Disk (List String) := do
  match session.boundary with
  | .choices label prompt choices => do
    session.saved.write stateOut
    pure (boundaryLines (.choices label prompt choices) session.game.host (some stateOut))
  | .finished => pure (boundaryLines .finished session.game.host none)

/-- Starts a game and saves it. -/
def runStart (scripts : String) (vars : List String) (visible : Bool) (stateOut : String) :
    Action Disk (List String) := do
  let vars ← Action.ofExcept (vars.mapM parseVar)
  let scenario ← Action.ofExcept (Scenario.load (← get) scripts)
  let session ← Action.ofExcept
    (Session.create (scenario.withVars vars) (if visible then .visible else .declared))
  report session stateOut

/-- Submits one choice to a saved game and saves it again. -/
def runChoose (stateIn : String) (choice : Nat) (stateOut : String) :
    Action Disk (List String) := do
  let session ← Action.ofExcept (Session.loadFile (← get) stateIn)
  match (Session.submit choice).result session with
  | (.error fault, _) => throw fault
  | (.ok _, session) => report session stateOut

/-- The program in a scripts folder. -/
def loadProgram (d : Disk) (strict : Bool) (scripts : String) : Except Fault Program := do
  let scenario ← Scenario.load d scripts
  Program.ofSources strict scenario.sources

/-- Tells about a dialogue and what is remarkable about it. -/
def runCheck (scripts : String) (strict : Bool) : Action Disk (List String) := do
  let program ← Action.ofExcept (loadProgram (← get) strict scripts)
  pure (["RESULT:OK", s!"LABELS:{program.dialogue.labels.size}",
      s!"INITIAL:{program.dialogue.initial}"] ++
    program.diagnostics.map fun d => s!"DIAGNOSTIC_JSON:{d.toJson.compact}")

/-- Writes a dialogue as a document. -/
def runDump (scripts : String) : Action Disk (List String) := do
  let program ← Action.ofExcept (loadProgram (← get) false scripts)
  pure [program.dialogue.toJson.indented]

/-- The file for saved games where none is named. -/
def defaultStateFile : String := ".parley/save.json"

/-- What is played in person: the scenario with its variables, and a fresh game of it. -/
def preparePlay (d : Disk) (scripts : String) (stateFile : Option String) (vars : List String) :
    Except Fault (Setting × Player) := do
  let scenario ← Scenario.load d scripts
  let scenario := scenario.withVars (← vars.mapM parseVar)
  let session ← Session.create scenario .declared
  .ok (⟨scenario, stateFile.getD defaultStateFile⟩, ⟨session, d⟩)

/-- How a command that writes lines ends. -/
def outputOf (result : Except Fault (List String)) : Output :=
  match result with
  | .ok lines => ⟨LinePlayer.linesText lines, 0⟩
  | .error fault => ⟨LinePlayer.linesText (faultLines fault), 1⟩

/-- Plays line by line on the given input. -/
def runPlay (d : Disk) (scripts : String) (stateFile : Option String) (vars : List String)
    (input : String) : Output × Disk :=
  match preparePlay d scripts stateFile vars with
  | .error fault => (outputOf (.error fault), d)
  | .ok (setting, player) =>
    let (text, verdict, player) := LinePlayer.run setting player input
    match verdict with
    | .ok () => (⟨text, 0⟩, player.disk)
    | .error fault => (⟨text ++ LinePlayer.linesText (faultLines fault), 1⟩, player.disk)

/-- A command that writes lines: its output, and the disk that it leaves. -/
def outputWithDisk (d : Disk) (a : Action Disk (List String)) : Output × Disk :=
  let (result, disk) := a.result d
  (outputOf result, disk)

/-- Runs a command on a disk and an input. -/
def run (d : Disk) (input : String) : Command → Output × Disk
  | start scripts vars visible stateOut =>
    outputWithDisk d (runStart scripts vars visible stateOut)
  | choose stateIn choice stateOut => outputWithDisk d (runChoose stateIn choice stateOut)
  | play scripts stateFile vars _ => runPlay d scripts stateFile vars input
  | check scripts strict => outputWithDisk d (runCheck scripts strict)
  | dump scripts => outputWithDisk d (runDump scripts)

/-- Runs what arguments stand for. -/
def runArguments (d : Disk) (args : List String) (input : String) : Output × Disk :=
  match ofArguments args with
  | .ok command => run d input command
  | .error .help => (⟨"", 0⟩, d)
  | .error .mistake => (⟨"", 2⟩, d)

end Colloquy.Command
