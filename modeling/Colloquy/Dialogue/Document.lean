import Colloquy.Dialogue.Diagnostic
import Colloquy.Expr.Document

/-!
# Dialogues in documents

Dialogues and the remarks on them are written as records with their fields in a fixed order. A
remark has the fields of its kind beside its own.
-/

namespace Colloquy

open Json (Record)

/-- The document of a choice. -/
def Choice.toJson (c : Choice) : Json :=
  .members [("text", .text c.text), ("targetLabel", .text c.target),
    ("condition", .optional Expr.toJson c.condition)]

/-- The choice of a document. -/
def Choice.ofJson? (depth : Nat) (document : Json) : Option Choice := do
  let (r, depth) ← Record.ofJson? ["text", "targetLabel", "condition"] depth document
  some {
    text := ← r.required "text" Json.toText?
    target := ← r.required "targetLabel" Json.toText?
    condition := ← r.optional "condition" (Expr.ofJson? depth) }

/-- The document of an after block. -/
def After.toJson (a : After) : Json :=
  .members [("codeBlocks", .array (a.code.map Expr.toJson)),
    ("targetLabel", .optional .text a.target)]

/-- The after block of a document. -/
def After.ofJson? (depth : Nat) (document : Json) : Option After := do
  let (r, depth) ← Record.ofJson? ["codeBlocks", "targetLabel"] depth document
  some {
    code := ← r.required "codeBlocks" (Json.toList? Expr.ofJson? depth)
    target := ← r.optional "targetLabel" Json.toText? }

/-- The document of a label. -/
def Label.toJson (l : Label) : Json :=
  .members [("name", .text l.name), ("text", .text l.text),
    ("choices", .optional (fun cs => .array (cs.map Choice.toJson)) l.choices),
    ("after", .optional After.toJson l.after)]

/-- The label of a document. -/
def Label.ofJson? (depth : Nat) (document : Json) : Option Label := do
  let (r, depth) ← Record.ofJson? ["name", "text", "choices", "after"] depth document
  some {
    name := ← r.required "name" Json.toText?
    text := ← r.required "text" Json.toText?
    choices := ← r.optional "choices" (Json.toList? Choice.ofJson? depth)
    after := ← r.optional "after" (After.ofJson? depth) }

/-- The document of a dialogue. -/
def Dialogue.toJson (d : Dialogue) : Json :=
  .members [("initialLabel", .text d.initial),
    ("labels", .members (d.labels.entries.map fun e => (e.1, e.2.toJson)))]

/-- The dialogue of a document. -/
def Dialogue.ofJson? (depth : Nat) (document : Json) : Option Dialogue := do
  let (r, depth) ← Record.ofJson? ["initialLabel", "labels"] depth document
  some {
    initial := ← r.required "initialLabel" Json.toText?
    labels := ← r.required "labels" (Json.toMap? Label.ofJson? depth) }

namespace Diagnostic

/-- The document of a remark. -/
def toJson (d : Diagnostic) : Json :=
  let kind : List (String × Json) := match d.kind with
    | .unreachableAfter => [("kind", .text "unreachableAfter")]
    | .danglingTarget target => [("kind", .text "danglingTarget"), ("target", .text target)]
  .members ([("label", .text d.label)] ++ kind ++ [("message", .text d.message)])

/-- The kind that a name, or the number of its place, stands for. -/
def kindName? : Json → Option String
  | .string (some name) => some name
  | value => match value.toNat? with
    | some 0 => some "unreachableAfter"
    | some 1 => some "danglingTarget"
    | _ => none

/-- The kind of a remark, from the members that are not its own. -/
def kindOfMembers? (members : List (String × Json)) : Option DiagnosticKind :=
  match members.filter (·.1 = "kind") with
  | [(_, kind)] => do
    match ← kindName? kind with
    | "unreachableAfter" => some .unreachableAfter
    | "danglingTarget" =>
      let r ← Record.ofMembers? ["target"] members
      some (.danglingTarget (← r.required "target" Json.toText?))
    | _ => none
  | _ => none

/-- The remark of a document, which has to be an object. Members other than its own two are all
read to their end. -/
def ofJson? (depth : Nat) (document : Json) : Option Diagnostic :=
  match depth, document with
  | depth + 1, .object members => do
    let members ← members.mapM Json.named?
    let r ← Record.ofMembers? ["label", "message"] members
    let others := members.filter fun m => m.1 ≠ "label" && m.1 ≠ "message"
    if others.all fun m => m.2.isReadable depth then
      some {
        label := ← r.required "label" Json.toText?
        kind := ← kindOfMembers? others
        message := ← r.required "message" Json.toText? }
    else none
  | _, _ => none

end Diagnostic

end Colloquy
