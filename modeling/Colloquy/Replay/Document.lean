import Colloquy.Replay

/-!
# Test cases in documents

Everything about a test case but its schema may be left out. Events and actions are variants with
their fields beside the `kind`.
-/

namespace Colloquy.Replay

open Json (Record)

/-- The document of an event. -/
def Event.toJson : Event → Json
  | prompt text choices => .members [("kind", .text "prompt"), ("text", .text text),
      ("choices", .array (choices.map .text))]
  | ignored => .members [("kind", .text "ignored")]
  | finished => .members [("kind", .text "end")]

/-- The fields of the kinds of events. -/
def eventFields? : String → Option (List String)
  | "prompt" => some ["text", "choices"]
  | "ignored" => some []
  | "end" => some []
  | _ => none

/-- The event of a document. -/
def Event.ofJson? (depth : Nat) (document : Json) : Option Event := do
  let (kind, r, depth) ← Json.taggedRecord? eventFields? depth document
  match kind with
  | "prompt" =>
    let text ← r.required "text" Json.toText?
    let choices ← r.required "choices" (Json.toList? (fun _ => Json.toText?) depth)
    some (.prompt text choices)
  | "ignored" => some .ignored
  | "end" => some .finished
  | _ => none

/-- The document of an action. -/
def actionToJson (index : Nat) : Json :=
  .members [("kind", .text "choose"), ("index", .ofNat index)]

/-- The fields of the one kind of actions. -/
def actionFields? : String → Option (List String)
  | "choose" => some ["index"]
  | _ => none

/-- The index that the action of a document submits. -/
def actionOfJson? (depth : Nat) (document : Json) : Option Nat := do
  let (_, r, _) ← Json.taggedRecord? actionFields? depth document
  r.required "index" Json.toNat?

namespace TestCase

/-- The document of a test case. -/
def toJson (c : TestCase) : Json :=
  .members [("schemaVersion", .text c.schema), ("vars", Sandbox.varsToJson c.vars),
    ("choiceIndexing", c.indexing.toJson), ("actions", .array (c.actions.map actionToJson)),
    ("expectedEvents", .array (c.expectedEvents.map Event.toJson)),
    ("expectedVars", Sandbox.varsToJson c.expectedVars),
    ("expectedPawn", .optional Sandbox.Point.toJson c.expectedPawn)]

/-- The names of the fields. -/
def fieldNames : List String :=
  ["schemaVersion", "vars", "choiceIndexing", "actions", "expectedEvents", "expectedVars",
   "expectedPawn"]

/-- The test case of a document. -/
def ofJson? (depth : Nat) (document : Json) : Option TestCase := do
  let (r, depth) ← Record.ofJson? fieldNames depth document
  some {
    schema := ← r.required "schemaVersion" Json.toText?
    vars := ← r.withDefault "vars" .empty (Sandbox.varsOfJson? depth)
    indexing := ← r.withDefault "choiceIndexing" .declared (Indexing.ofJson? depth)
    actions := ← r.withDefault "actions" [] (Json.toList? actionOfJson? depth)
    expectedEvents := ← r.withDefault "expectedEvents" [] (Json.toList? Event.ofJson? depth)
    expectedVars := ← r.withDefault "expectedVars" .empty (Sandbox.varsOfJson? depth)
    expectedPawn := ← r.withDefault "expectedPawn" none
      (Json.toOption? (Sandbox.Point.ofJson? depth)) }

/-- Reads a test case from a file. -/
def read (d : Disk) (path : String) : Except Failure TestCase :=
  match d.text? path with
  | none => .error (.unreadable path)
  | some text =>
    match (Json.read? text).bind (ofJson? Json.depthLimit) with
    | none => .error (.invalidCase path)
    | some c => if c.schema = currentSchema then .ok c else .error (.schema c.schema)

/-- Replays the test case in a file on the scripts below a path, and compares. -/
def assert (d : Disk) (scripts path : String) : Except Failure Unit := do
  let c ← read d path
  check c (← run d scripts c)

end TestCase

namespace Failure

/-- A number, or that there is none. -/
def numberText : Option Float → String
  | some x => s!"Some({Layout.marked.write x})"
  | none => "None"

/-- The failure in words. -/
def message : Failure → String
  | unreadable path => s!"cannot read {path}"
  | invalidCase path => s!"testcase {path} is not valid JSON"
  | invalidHost path => s!"host state {path} is not valid JSON"
  | schema found => s!"testcase schema is \"{found}\" but this runner reads \"{currentSchema}\""
  | noScripts path => s!"no .dlg scripts found under {path}"
  | dialogue fault => fault.report.text
  | unusedActions used total => s!"dialogue ended after {used} of {total} actions"
  | stepLimit => s!"replay did not settle within {Replay.stepLimit} steps"
  | eventCount expected observed =>
    s!"expected {expected} events, saw {observed.length}; transcript: " ++
      (Json.array (observed.map Event.toJson)).indented
  | eventDiffers place expected actual =>
    s!"event #{place} differs: wanted {expected.toJson.compact}, saw {actual.toJson.compact}"
  | varDiffers name expected actual =>
    s!"variable \"{name}\" should be {Number.text expected}, found {numberText actual}"
  | pawnDiffers expected actual => s!"pawn should be at {expected.text}, found {actual.text}"

end Failure

end Colloquy.Replay
