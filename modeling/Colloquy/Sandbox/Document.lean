import Colloquy.Json.Printer
import Colloquy.Json.Record
import Colloquy.Sandbox

/-!
# Sandbox states in documents

A state is a record of the pawn's place and the variables; either may be left out.
-/

namespace Colloquy.Sandbox

open Json (Record)

/-- The document of a point. -/
def Point.toJson (p : Point) : Json :=
  .members [("x", .ofFloat p.x), ("y", .ofFloat p.y), ("z", .ofFloat p.z)]

/-- The point of a document. -/
def Point.ofJson? (depth : Nat) (document : Json) : Option Point := do
  let (r, _) ← Record.ofJson? ["x", "y", "z"] depth document
  some {
    x := ← r.required "x" Json.toFloat?
    y := ← r.required "y" Json.toFloat?
    z := ← r.required "z" Json.toFloat? }

/-- The document of named numbers. -/
def varsToJson (vars : NameMap Float) : Json :=
  .members (vars.entries.map fun v => (v.1, .ofFloat v.2))

/-- The named numbers of a document. -/
def varsOfJson? (depth : Nat) (document : Json) : Option (NameMap Float) :=
  Json.toMap? (fun _ => Json.toFloat?) depth document

/-- The document of a state. -/
def State.toJson (s : State) : Json :=
  .members [("pawn", s.pawn.toJson), ("vars", varsToJson s.vars)]

/-- The state of a document. -/
def State.ofJson? (depth : Nat) (document : Json) : Option State := do
  let (r, depth) ← Record.ofJson? ["pawn", "vars"] depth document
  some {
    pawn := ← r.withDefault "pawn" .origin (Point.ofJson? depth)
    vars := ← r.withDefault "vars" .empty (varsOfJson? depth) }

end Colloquy.Sandbox
