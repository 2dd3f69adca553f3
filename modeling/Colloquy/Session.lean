import Colloquy.Dialogue.Program
import Colloquy.Playthrough.Document
import Colloquy.Scenario

/-!
# Sessions and saved games

A session is a game of a scenario in the sandbox. A saved game holds the scenario's name, the
place in the dialogue and the state of the sandbox; everything else is built anew from the scripts
when it is resumed. What the player sees between two submissions is a boundary.
-/

namespace Colloquy

open Json (Record)

/-- A game being played. -/
structure Session where
  scenarioId : String
  game : Game Sandbox.State

/-- A game as it is saved. -/
structure SavedGame where
  schema : String
  scenarioId : String
  snapshot : Snapshot
  host : Sandbox.State

namespace SavedGame

/-- The schema of saved games. -/
def currentSchema : String := "player-state.v1"

/-- The document of a saved game. -/
def toJson (s : SavedGame) : Json :=
  .members [("schemaVersion", .text s.schema), ("scenarioId", .text s.scenarioId),
    ("snapshot", s.snapshot.toJson), ("host", s.host.toJson)]

/-- The saved game of a document. -/
def ofJson? (depth : Nat) (document : Json) : Option SavedGame := do
  let (r, depth) ← Record.ofJson? ["schemaVersion", "scenarioId", "snapshot", "host"] depth document
  some {
    schema := ← r.required "schemaVersion" Json.toText?
    scenarioId := ← r.required "scenarioId" Json.toText?
    snapshot := ← r.required "snapshot" (Snapshot.ofJson? depth)
    host := ← r.required "host" (Sandbox.State.ofJson? depth) }

/-- The text of a saved game. -/
def text (s : SavedGame) : String := s.toJson.compact

/-- The saved game of a text. -/
def ofText? (text : String) : Option SavedGame :=
  (Json.read? text).bind (ofJson? Json.depthLimit)

/-- Writes a saved game to a file, making the folder for it if need be. A failure leaves every
file as it was. -/
def write (path : String) (s : SavedGame) : Action Disk Unit := do
  let (disk, made) := (← get).makeParent path
  set disk
  if made then
    match disk.writeFile path s.text.toUTF8 with
    | some disk => set disk
    | none => throw (Site.stateWrite.faultAt path "cannot be written")
  else throw (Site.stateWrite.faultAt path "no folder")

/-- Reads a saved game from a file. -/
def read (d : Disk) (path : String) : Except Fault SavedGame :=
  match d.find? path with
  | none => .error (.host "CLI_STATE_NOT_FOUND" s!"State file does not exist: {path}")
  | some (.folder _) => .error (Site.stateRead.faultAt path "a folder")
  | some (.file content) =>
    match String.fromUTF8? content with
    | none => .error (Site.stateRead.faultAt path "not text")
    | some text =>
      match ofText? text with
      | none => .error (Site.stateInvalid.faultAt path "not a saved game")
      | some saved =>
        if saved.schema = currentSchema then .ok saved
        else .error (.host "CLI_STATE_SCHEMA" s!"Unsupported player state schema: {saved.schema}")

end SavedGame

/-- What the player sees between two submissions. Choices never stand without a label and a prompt:
they are those of a view, which has both. -/
inductive Boundary
  /-- A label with its prompt and its choices, each with the index to submit for it. -/
  | choices (label prompt : String) (choices : List (Nat × String))
  | finished
deriving DecidableEq

/-- The boundary of a playthrough. -/
def Playthrough.boundary (p : Playthrough) : Boundary :=
  match p.view with
  | some view => .choices view.label view.prompt p.indexedChoices
  | none => .finished

namespace Session

/-- A fresh game of a scenario. -/
def create (s : Scenario) (indexing : Indexing) : Except Fault Session := do
  let program ← Program.ofSources false s.sources
  match (Playthrough.start Sandbox.host program.dialogue indexing).result s.host with
  | (.ok play, host) => .ok ⟨s.id, ⟨play, host⟩⟩
  | (.error fault, _) => .error fault

/-- The game that was saved, in a scenario. -/
def resume (s : Scenario) (saved : SavedGame) : Except Fault Session := do
  let program ← Program.ofSources false s.sources
  match (Playthrough.resume Sandbox.host program.dialogue saved.snapshot).result saved.host with
  | (.ok play, host) => .ok ⟨saved.scenarioId, ⟨play, host⟩⟩
  | (.error fault, _) => .error fault

/-- The game as it is saved. -/
def saved (s : Session) : SavedGame :=
  ⟨SavedGame.currentSchema, s.scenarioId, s.game.play.snapshot, s.game.host⟩

/-- What the player sees. -/
def boundary (s : Session) : Boundary := s.game.play.boundary

/-- Submits the choice with the given index. -/
def submit (index : Nat) : Action Session Outcome :=
  (Game.submit Sandbox.host index).within (·.game) fun session game => { session with game }

/-- The game saved in a file, in the scenario that the file names. -/
def loadFile (d : Disk) (path : String) : Except Fault Session := do
  let saved ← SavedGame.read d path
  let scenario ← Scenario.loadById d saved.scenarioId
  resume scenario saved

/-- The game saved in a file, which has to be of the given scenario. -/
def loadFor (d : Disk) (path : String) (s : Scenario) : Except Fault Session := do
  let saved ← SavedGame.read d path
  if saved.scenarioId = s.id then resume s saved
  else .error (.host "TUI_STATE_SCENARIO_MISMATCH"
    s!"State scenario mismatch. expected={s.id} actual={saved.scenarioId}")

end Session

end Colloquy
