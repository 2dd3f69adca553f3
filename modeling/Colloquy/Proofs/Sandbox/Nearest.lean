import Colloquy.Proofs.Json.Nearest
import Colloquy.Proofs.Sandbox.Document

/-!
# Sandbox states by the nearest doubles

A state is read from its document with each number as the double nearest to its literal. Every state
with finite numbers is read back so (`Sandbox.State.nearest?_toJson`).
-/

namespace Colloquy.Sandbox

/-- The point of a document, by the doubles nearest to its literals. -/
def Point.nearest? (document : Json) : Option Point := do
  let x ← (document.member? "x").bind Json.nearest?
  let y ← (document.member? "y").bind Json.nearest?
  let z ← (document.member? "z").bind Json.nearest?
  some ⟨x, y, z⟩

/-- The named numbers of a document, by the doubles nearest to its literals. -/
def nearestVars? : Json → Option (NameMap Float)
  | .object members => do
    let entries ← members.mapM fun member => do some (← member.1, ← Json.nearest? member.2)
    some (.ofList entries)
  | _ => none

/-- The state of a document, by the doubles nearest to its literals. -/
def State.nearest? (document : Json) : Option State := do
  let pawn ← (document.member? "pawn").bind Point.nearest?
  let vars ← (document.member? "vars").bind nearestVars?
  some ⟨pawn, vars⟩

theorem Point.nearest?_toJson {p : Point} (hfinite : ∀ x ∈ p.numbers, Binary64.isFinite x = true) :
    Point.nearest? p.toJson = some p := by
  unfold Point.numbers at hfinite
  simp only [List.forall_mem_cons] at hfinite
  obtain ⟨hx, hy, hz, -⟩ := hfinite
  show (do
    let x ← Json.nearest? (.ofFloat p.x)
    let y ← Json.nearest? (.ofFloat p.y)
    let z ← Json.nearest? (.ofFloat p.z)
    some (⟨x, y, z⟩ : Point)) = some p
  rw [Json.nearest?_ofFloat hx, Json.nearest?_ofFloat hy, Json.nearest?_ofFloat hz]
  rfl

theorem nearestVars?_toJson {vars : NameMap Float}
    (hfinite : ∀ e ∈ vars.entries, Binary64.isFinite e.2 = true) :
    nearestVars? (varsToJson vars) = some vars := by
  have hentries : ((vars.entries.map fun e => (e.1, Json.ofFloat e.2)).map fun m => (some m.1, m.2)).mapM
      (fun member => do some (← member.1, ← Json.nearest? member.2)) = some vars.entries := by
    rw [List.map_map, mapM_map_eq_self_iff]
    intro e he
    show (do some (e.1, ← Json.nearest? (.ofFloat e.2))) = some e
    rw [Json.nearest?_ofFloat (hfinite e he)]
    rfl
  show (do some (NameMap.ofList (← _))) = some vars
  rw [hentries]
  exact congrArg some (NameMap.ext_entries (NameMap.entries_ofList vars.ascending))

/-- A state with finite numbers is read from its document. -/
theorem State.nearest?_toJson {s : State} (hfinite : ∀ x ∈ s.numbers, Binary64.isFinite x = true) :
    State.nearest? s.toJson = some s := by
  unfold numbers at hfinite
  rw [List.forall_mem_append, List.forall_mem_map] at hfinite
  obtain ⟨hpawn, hvars⟩ := hfinite
  show (do
    let pawn ← Point.nearest? s.pawn.toJson
    let vars ← nearestVars? (varsToJson s.vars)
    some (⟨pawn, vars⟩ : State)) = some s
  rw [Point.nearest?_toJson hpawn, nearestVars?_toJson hvars]
  rfl

end Colloquy.Sandbox
