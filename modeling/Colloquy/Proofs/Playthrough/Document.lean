import Colloquy.Playthrough.Document
import Colloquy.Proofs.Json.Codec

/-!
# Snapshots that were written

A snapshot holds no numbers, so its document always reads as the snapshot
(`Snapshot.ofJson?_toJson`).
-/

namespace Colloquy

open Json (Codec Record)

namespace Indexing

/-- Ways of counting choices in documents. -/
def codec : Codec Indexing := ⟨toJson, ofJson?, fun _ => [], 0⟩

theorem lawful : codec.Lawful where
  plain indexing := by cases indexing <;> exact Json.plain_text _
  decode_encode {depth indexing} _ := by
    refine iff_of_true ?_ (List.forall_mem_nil _)
    cases indexing <;> rfl
  fits {depth _ indexing} _ _ := by
    refine ⟨?_, List.forall_mem_nil _⟩
    cases indexing <;> exact Nat.zero_le depth

theorem fits_declared (depth : Nat) : codec.Fits depth .declared := ⟨Nat.zero_le depth, List.forall_mem_nil _⟩

end Indexing

namespace Snapshot

theorem plain_toJson (s : Snapshot) : s.toJson.Plain := by
  apply Json.plain_members
  simp only [List.forall_mem_cons]
  exact ⟨Json.plain_text _, Codec.lawful_optional_text.plain s.label, Indexing.lawful.plain s.indexing,
    List.forall_mem_nil _⟩

theorem ofJson?_toJson (depth : Nat) (s : Snapshot) : ofJson? (depth + 1) s.toJson = some s := by
  obtain ⟨schema, label, indexing⟩ := s
  unfold ofJson? toJson
  rw [Record.ofJson?_members]
  · cases label <;> cases indexing <;> rfl
  · rfl
  · decide

/-- Snapshots in documents. -/
def codec : Codec Snapshot := ⟨toJson, ofJson?, fun _ => [], 0⟩

/-- **Snapshots are read as they were written.** -/
theorem lawful : codec.Lawful where
  plain := plain_toJson
  decode_encode {depth s} hheight := by
    obtain ⟨inside, rfl, -⟩ := Json.height_members_le.mp hheight
    exact iff_of_true (ofJson?_toJson inside s) (List.forall_mem_nil _)
  fits {depth document s} _ h := by
    obtain ⟨r, inside, rfl, hfields⟩ := Record.exists_of_ofJson? h
    obtain ⟨schema, -, h⟩ := Option.bind_eq_some_iff.mp hfields
    obtain ⟨label, hlabel, h⟩ := Option.bind_eq_some_iff.mp h
    obtain ⟨indexing, hindexing, h⟩ := Option.bind_eq_some_iff.mp h
    cases h
    have hplace := Codec.lawful_text.fits_optional (Nat.zero_le inside) hlabel
    have hcounting := Indexing.lawful.fits_withDefault (Nat.zero_le inside) (Indexing.fits_declared inside)
      hindexing
    refine ⟨Json.height_members_le.mpr ⟨inside, rfl, ?_⟩, List.forall_mem_nil _⟩
    simp only [List.forall_mem_cons]
    exact ⟨Nat.zero_le _, hplace.height, hcounting.height, List.forall_mem_nil _⟩

end Snapshot

end Colloquy
