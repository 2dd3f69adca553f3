import Colloquy.Session

/-!
# Replaying test cases

A test case submits a list of indices to a fresh game and says what the player should have seen:
the prompts with their choices, the submissions that were ignored, and the end. A replay stops at
the end of the dialogue, or at the first prompt after the last index; it gives up after
`stepLimit` prompts.
-/

namespace Colloquy.Replay

/-- Something seen during a replay. -/
inductive Event
  | prompt (text : String) (choices : List String)
  /-- The choice submitted was hidden and nothing happened. -/
  | ignored
  | finished
deriving DecidableEq

/-- What to submit to a fresh game, and what to expect. -/
structure TestCase where
  schema : String
  /-- Laid over the variables of the scenario. -/
  vars : NameMap Float
  indexing : Indexing
  actions : List Nat
  expectedEvents : List Event
  expectedVars : NameMap Float
  expectedPawn : Option Sandbox.Point

/-- The schema of test cases. -/
def currentSchema : String := "pl-tool-case.v1"

/-- How many prompts a replay shows at most. -/
def stepLimit : Nat := 5000

/-- What a replay showed. -/
structure Transcript where
  events : List Event
  /-- How many indices were submitted. -/
  used : Nat
  host : Sandbox.State

/-- Why a replay, or the comparison with what was expected, fails. -/
inductive Failure
  | unreadable (path : String)
  | invalidCase (path : String)
  | invalidHost (path : String)
  | schema (found : String)
  | noScripts (path : String)
  | dialogue (fault : Fault)
  | unusedActions (used total : Nat)
  | stepLimit
  | eventCount (expected : Nat) (observed : List Event)
  | eventDiffers (place : Nat) (expected actual : Event)
  | varDiffers (name : String) (expected : Float) (actual : Option Float)
  | pawnDiffers (expected actual : Sandbox.Point)

/-- The prompt of a playthrough as an event. -/
def promptEvent (p : Playthrough) : Event :=
  .prompt ((p.view.map (·.prompt)).getD "") p.choices

/-- Replays with a number of prompts left, after some indices and events, the last event first. -/
def steps (game : Game Sandbox.State) (used : Nat) (seen : List Event) :
    Nat → List Nat → Except Failure Transcript
  | 0, _ => .error .stepLimit
  | left + 1, actions =>
    if game.play.isEnded then
      if actions = [] then .ok ⟨(.finished :: seen).reverse, used, game.host⟩
      else .error (.unusedActions used (used + actions.length))
    else
      let seen := promptEvent game.play :: seen
      match actions with
      | [] => .ok ⟨seen.reverse, used, game.host⟩
      | index :: rest =>
        match (Game.submit Sandbox.host index).result game with
        | (.error fault, _) => .error (.dialogue fault)
        | (.ok .ignored, game) => steps game (used + 1) (.ignored :: seen) left rest
        | (.ok _, game) => steps game (used + 1) seen left rest

/-- The scripts and the starting state below a path. -/
def readScenario (d : Disk) (path : String) : Except Failure (NameMap String × Sandbox.State) := do
  let scripts ← match d.find? path with
    | none => .ok .empty
    | some tree =>
      match Scenario.scriptsOf? path tree with
      | some scripts => .ok scripts
      | none => .error (.unreadable path)
  if scripts.size = 0 then .error (.noScripts path)
  else do
    let hostPath := FilePath.join path Scenario.hostFile
    match d.bytes? hostPath with
    | none => .ok (scripts, .empty)
    | some content =>
      match String.fromUTF8? content with
      | none => .error (.unreadable hostPath)
      | some text =>
        match (Json.read? text).bind (Sandbox.State.ofJson? Json.depthLimit) with
        | some host => .ok (scripts, host)
        | none => .error (.invalidHost hostPath)

/-- Replays a test case on the scripts below a path. -/
def run (d : Disk) (path : String) (c : TestCase) : Except Failure Transcript := do
  let (sources, host) ← readScenario d path
  let host := { host with vars := host.vars.overlay c.vars }
  let program ← (Program.ofSources false sources).mapError .dialogue
  match (Playthrough.start Sandbox.host program.dialogue c.indexing).result host with
  | (.error fault, _) => .error (.dialogue fault)
  | (.ok play, host) => steps ⟨play, host⟩ 0 [] stepLimit c.actions

/-- The first place at which two lists of events differ. -/
def firstDifference? : Nat → List Event → List Event → Option (Nat × Event × Event)
  | place, a :: as, b :: bs =>
    if a = b then firstDifference? (place + 1) as bs else some (place, a, b)
  | _, _, _ => none

/-- Compares the final variables with the expected ones, name by name. -/
def checkVars (vars : NameMap Float) : List (String × Float) → Except Failure Unit
  | [] => .ok ()
  | (name, expected) :: rest =>
    match vars.find? name with
    | some actual =>
      if actual == expected then checkVars vars rest
      else .error (.varDiffers name expected (some actual))
    | none => .error (.varDiffers name expected none)

/-- Compares what a replay showed with what was expected. -/
def check (c : TestCase) (t : Transcript) : Except Failure Unit :=
  if t.events.length ≠ c.expectedEvents.length then
    .error (.eventCount c.expectedEvents.length t.events)
  else match firstDifference? 0 c.expectedEvents t.events with
    | some (place, expected, actual) => .error (.eventDiffers place expected actual)
    | none => do
      checkVars t.host.vars c.expectedVars.entries
      match c.expectedPawn with
      | none => .ok ()
      | some expected =>
        if t.host.pawn.same expected then .ok () else .error (.pawnDiffers expected t.host.pawn)

end Colloquy.Replay
