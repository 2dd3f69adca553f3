import Colloquy.Proofs.Action
import Colloquy.Proofs.FileTree
import Colloquy.Proofs.Playthrough.Document
import Colloquy.Proofs.Sandbox.Document
import Colloquy.Session

/-!
# Saved games that were written

A saved game is written as text to a file and read from it again. Main statement, `read_of_written`:
what is read from the file that a saved game was written to is the saved game with the numbers of
its sandbox read anew, and the file is refused when one of these cannot be read. As a document it is
lawful like the parts it is made of (`lawful`).
-/

namespace Colloquy

open Json (Figure Codec Record)

namespace SavedGame

/-! ## Documents -/

/-- What a saved game is after it was written and read. -/
def reread? (s : SavedGame) : Option SavedGame := s.host.reread?.map fun host => { s with host }

theorem plain_toJson (s : SavedGame) : s.toJson.Plain := by
  refine Json.plain_members ?_
  simp [Json.plain_text, Snapshot.plain_toJson, Sandbox.State.plain_toJson]

theorem ofJson?_toJson (depth : Nat) (s : SavedGame) : ofJson? (depth + 3) s.toJson = s.reread? := by
  unfold ofJson? toJson
  rw [Json.Record.ofJson?_members]
  · show (do
      let snapshot ← Snapshot.ofJson? (depth + 2) s.snapshot.toJson
      let host ← Sandbox.State.ofJson? (depth + 2) s.host.toJson
      some (⟨s.schema, s.scenarioId, snapshot, host⟩ : SavedGame)) = _
    rw [Snapshot.ofJson?_toJson, Sandbox.State.ofJson?_toJson]
    unfold reread?
    cases s.host.reread? <;> rfl
  · rfl
  · decide

/-- The text of a saved game reads as the saved game with the numbers of its sandbox read anew. -/
theorem ofText?_text (s : SavedGame) : ofText? s.text = s.reread? := by
  unfold ofText? text
  rw [Json.read?_compact s.plain_toJson]
  exact ofJson?_toJson 124 s

/-- Saved games in documents. -/
def codec : Codec SavedGame := ⟨toJson, ofJson?, fun s => s.host.numbers.map .quantity, 3⟩

theorem reread?_eq_self_iff {s : SavedGame} : s.reread? = some s ↔ s.host.reread? = some s.host := by
  obtain ⟨schema, scenarioId, snapshot, host⟩ := s
  unfold reread?
  rw [Option.map_eq_some_iff]
  simp

/-- **Saved games are read as they were written.** -/
theorem lawful : codec.Lawful where
  plain := plain_toJson
  decode_encode {depth s} hheight := by
    obtain ⟨inside, rfl, hfields⟩ := Json.height_members_le.mp hheight
    simp only [List.forall_mem_cons] at hfields
    obtain ⟨-, -, -, hhost, -⟩ := hfields
    obtain ⟨middle, rfl, hparts⟩ := Json.height_members_le.mp hhost
    obtain ⟨deeper, rfl⟩ := Sandbox.Point.height_toJson_le.mp (List.forall_mem_cons.mp hparts).1
    show ofJson? (deeper + 3) s.toJson = some s ↔ ∀ figure ∈ s.host.numbers.map Figure.quantity, figure.ReadsBack
    rw [ofJson?_toJson, reread?_eq_self_iff, Sandbox.State.reread?_eq_self_iff, List.forall_mem_map]
    rfl
  fits {depth document s} hroom h := by
    obtain ⟨r, inside, rfl, hfields⟩ := Record.exists_of_ofJson? h
    obtain ⟨schema, -, h⟩ := Option.bind_eq_some_iff.mp hfields
    obtain ⟨scenarioId, -, h⟩ := Option.bind_eq_some_iff.mp h
    obtain ⟨snapshot, hsnapshot, h⟩ := Option.bind_eq_some_iff.mp h
    obtain ⟨host, hhost, h⟩ := Option.bind_eq_some_iff.mp h
    cases h
    have hplace := Snapshot.lawful.fits_required (Nat.zero_le inside) hsnapshot
    have hstate := Sandbox.State.lawful.fits_required (Nat.le_of_succ_le_succ hroom) hhost
    refine ⟨Json.height_members_le.mpr ⟨inside, rfl, ?_⟩, hstate.inRange⟩
    simp only [List.forall_mem_cons]
    exact ⟨Nat.zero_le _, Nat.zero_le _, hplace.height, hstate.height, List.forall_mem_nil _⟩

/-! ## Files -/

/-- A saved game that was written is the text of a file. -/
theorem find?_of_written {path : String} {s : SavedGame} {d d' : Disk}
    (h : (s.write path).result d = (.ok (), d')) : d'.find? path = some (.file s.text.toUTF8) := by
  unfold write at h
  rw [Action.result_bind_of_ok (Action.result_get d)] at h
  generalize d.makeParent path = parent at h
  obtain ⟨folders, made⟩ := parent
  dsimp only at h
  rw [Action.result_bind_of_ok (Action.result_set d folders)] at h
  cases made with
  | false => cases h
  | true =>
    cases hwrite : folders.writeFile path s.text.toUTF8 with
    | none =>
      rw [if_pos rfl, hwrite] at h
      cases h
    | some written =>
      rw [if_pos rfl, hwrite] at h
      cases h
      exact Disk.find?_writeFile hwrite

/-- **What was written is read**, up to its numbers. -/
theorem read_of_written {path : String} {s : SavedGame} {d d' : Disk} (hschema : s.schema = currentSchema)
    (h : (s.write path).result d = (.ok (), d')) :
    read d' path = match s.reread? with
      | some saved => .ok saved
      | none => .error (Site.stateInvalid.faultAt path "not a saved game") := by
  unfold read
  rw [find?_of_written h]
  dsimp only
  rw [fromUTF8?_toUTF8]
  dsimp only
  rw [ofText?_text]
  unfold reread?
  cases s.host.reread? with
  | none => rfl
  | some host => exact if_pos hschema

end SavedGame

end Colloquy
