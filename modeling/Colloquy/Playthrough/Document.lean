import Colloquy.Json.Printer
import Colloquy.Json.Record
import Colloquy.Playthrough

/-!
# Snapshots in documents

A snapshot names its schema, the label or null, and how choices are counted; the count is of the
declared choices unless said otherwise.
-/

namespace Colloquy

open Json (Record)

/-- The document of a way of counting choices. -/
def Indexing.toJson : Indexing → Json
  | .declared => .text "declared"
  | .visible => .text "visible"

/-- The way of counting choices of a document. -/
def Indexing.ofJson? (depth : Nat) (document : Json) : Option Indexing := do
  match ← Json.variantName? .document depth document with
  | "declared" => some .declared
  | "visible" => some .visible
  | _ => none

/-- The document of a snapshot. -/
def Snapshot.toJson (s : Snapshot) : Json :=
  .members [("schemaVersion", .text s.schema), ("currentLabel", .optional .text s.label),
    ("choiceIndexing", s.indexing.toJson)]

/-- The snapshot of a document. -/
def Snapshot.ofJson? (depth : Nat) (document : Json) : Option Snapshot := do
  let (r, depth) ← Record.ofJson? ["schemaVersion", "currentLabel", "choiceIndexing"] depth document
  some {
    schema := ← r.required "schemaVersion" Json.toText?
    label := ← r.optional "currentLabel" Json.toText?
    indexing := ← r.withDefault "choiceIndexing" .declared (Indexing.ofJson? depth) }

end Colloquy
