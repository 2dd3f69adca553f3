import Colloquy.Proofs.Json.Codec
import Colloquy.Sandbox.Document

/-!
# Sandbox states that were written

The document of a state reads as the state with each of its numbers read anew
(`State.ofJson?_toJson`). That is the state itself just when every number reads back
(`State.reread?_eq_self_iff`), and nothing if one of them cannot be read (`State.reread?_eq_none`).
Conversely every state that was read could have been written (`State.lawful`).
-/

namespace Colloquy.Sandbox

open Json (ReadsBack Figure Codec Record)

/-! ## Points -/

namespace Point

/-- The coordinates. -/
def numbers (p : Point) : List Float := [p.x, p.y, p.z]

/-- What a point is after it was written and read. -/
def reread? (p : Point) : Option Point := do
  let x ← Json.reread? p.x
  let y ← Json.reread? p.y
  let z ← Json.reread? p.z
  some ⟨x, y, z⟩

theorem plain_toJson (p : Point) : p.toJson.Plain := by
  refine Json.plain_members ?_
  simp [Json.plain_ofFloat]

theorem ofJson?_toJson (depth : Nat) (p : Point) : ofJson? (depth + 1) p.toJson = p.reread? := by
  unfold ofJson? toJson
  rw [Json.Record.ofJson?_members]
  · rfl
  · rfl
  · decide

theorem reread?_eq_some {p q : Point} : p.reread? = some q ↔
    Json.reread? p.x = some q.x ∧ Json.reread? p.y = some q.y ∧ Json.reread? p.z = some q.z := by
  unfold reread?
  constructor
  · intro h
    obtain ⟨x, hx, h⟩ := Option.bind_eq_some_iff.mp h
    obtain ⟨y, hy, h⟩ := Option.bind_eq_some_iff.mp h
    obtain ⟨z, hz, h⟩ := Option.bind_eq_some_iff.mp h
    obtain rfl : ⟨x, y, z⟩ = q := Option.some.inj h
    exact ⟨hx, hy, hz⟩
  · rintro ⟨hx, hy, hz⟩
    rw [hx, hy, hz]
    rfl

theorem reread?_eq_self_iff {p : Point} : p.reread? = some p ↔ ∀ x ∈ p.numbers, ReadsBack x := by
  rw [reread?_eq_some]
  simp [numbers, ReadsBack]

theorem reread?_eq_none {p : Point} {x : Float} (hx : x ∈ p.numbers) (hnone : Json.reread? x = none) :
    p.reread? = none := by
  rw [Option.eq_none_iff_forall_ne_some]
  intro q hq
  obtain ⟨hreadx, hready, hreadz⟩ := reread?_eq_some.mp hq
  have hread : ∃ y, Json.reread? x = some y := by
    simp only [numbers, List.mem_cons, List.not_mem_nil, or_false] at hx
    rcases hx with rfl | rfl | rfl
    · exact ⟨q.x, hreadx⟩
    · exact ⟨q.y, hready⟩
    · exact ⟨q.z, hreadz⟩
  obtain ⟨y, hy⟩ := hread
  rw [hnone] at hy
  cases hy

/-- Points in documents. -/
def codec : Codec Point := ⟨toJson, ofJson?, fun p => p.numbers.map .quantity, 0⟩

theorem height_toJson_le {p : Point} {depth : Nat} : p.toJson.height ≤ depth ↔ ∃ inside, depth = inside + 1 := by
  unfold toJson
  rw [Json.height_members_le]
  simp [Json.height_ofFloat]

/-- A point that was read has finite coordinates. -/
theorem fits_of_ofJson? {p : Point} {depth : Nat} {document : Json} (h : ofJson? depth document = some p) :
    codec.Fits depth p := by
  obtain ⟨r, inside, rfl, hfields⟩ := Record.exists_of_ofJson? h
  obtain ⟨x, hx, h⟩ := Option.bind_eq_some_iff.mp hfields
  obtain ⟨y, hy, h⟩ := Option.bind_eq_some_iff.mp h
  obtain ⟨z, hz, h⟩ := Option.bind_eq_some_iff.mp h
  cases h
  obtain ⟨_, hx⟩ := Record.exists_of_required hx
  obtain ⟨_, hy⟩ := Record.exists_of_required hy
  obtain ⟨_, hz⟩ := Record.exists_of_required hz
  refine ⟨height_toJson_le.mpr ⟨inside, rfl⟩, List.forall_mem_map.mpr ?_⟩
  show ∀ coordinate ∈ [x, y, z], Binary64.isFinite coordinate = true
  simp only [List.forall_mem_cons]
  exact ⟨Json.isFinite_of_toFloat? hx, Json.isFinite_of_toFloat? hy, Json.isFinite_of_toFloat? hz,
    List.forall_mem_nil _⟩

/-- Points are read as they were written. -/
theorem lawful : codec.Lawful where
  plain := plain_toJson
  decode_encode {depth p} hheight := by
    obtain ⟨inside, rfl⟩ := height_toJson_le.mp hheight
    show ofJson? (inside + 1) p.toJson = some p ↔ ∀ figure ∈ p.numbers.map Figure.quantity, figure.ReadsBack
    rw [ofJson?_toJson, reread?_eq_self_iff, List.forall_mem_map]
    rfl
  fits _ h := fits_of_ofJson? h

theorem fits_origin (inside : Nat) : codec.Fits (inside + 1) origin := by
  refine ⟨height_toJson_le.mpr ⟨inside, rfl⟩, List.forall_mem_map.mpr ?_⟩
  have hzero : Binary64.isFinite 0 = true := by decide +kernel
  show ∀ coordinate ∈ [(0 : Float), 0, 0], Binary64.isFinite coordinate = true
  simp only [List.forall_mem_cons]
  exact ⟨hzero, hzero, hzero, List.forall_mem_nil _⟩

end Point

/-! ## Variables -/

/-- Named numbers in documents. -/
def varsCodec : Codec (NameMap Float) := Codec.quantity.map

theorem lawful_vars : varsCodec.Lawful := Codec.lawful_quantity.map

theorem fits_no_vars (inside : Nat) : varsCodec.Fits (inside + 1) .empty :=
  ⟨Json.height_members_le.mpr ⟨inside, rfl, List.forall_mem_nil _⟩, List.forall_mem_nil _⟩

/-! ## States -/

namespace State

/-- Where the pawn is and what the variables are. -/
def numbers (s : State) : List Float := s.pawn.numbers ++ s.vars.entries.map (·.2)

/-- What a state is after it was written and read. -/
def reread? (s : State) : Option State := do
  let pawn ← s.pawn.reread?
  let vars ← s.vars.mapValues? Json.reread?
  some ⟨pawn, vars⟩

theorem plain_toJson (s : State) : s.toJson.Plain := by
  have hvars : (varsToJson s.vars).Plain := by
    refine Json.plain_members fun member hmember => ?_
    obtain ⟨v, -, rfl⟩ := List.mem_map.mp hmember
    exact Json.plain_ofFloat v.2
  refine Json.plain_members ?_
  simp [Point.plain_toJson, hvars]

/-- The document of a state reads as the state with its numbers read anew. -/
theorem ofJson?_toJson (depth : Nat) (s : State) : ofJson? (depth + 2) s.toJson = s.reread? := by
  have hvars : varsOfJson? (depth + 1) (varsToJson s.vars) = s.vars.mapValues? Json.reread? :=
    Json.toMap?_members (fun _ => Json.toFloat?) Json.ofFloat depth s.vars
  unfold ofJson? toJson
  rw [Json.Record.ofJson?_members]
  · show (do
      let pawn ← Point.ofJson? (depth + 1) s.pawn.toJson
      let vars ← varsOfJson? (depth + 1) (varsToJson s.vars)
      some (⟨pawn, vars⟩ : State)) = _
    rw [Point.ofJson?_toJson, hvars]
    rfl
  · rfl
  · decide

theorem reread?_eq_some {s t : State} : s.reread? = some t ↔
    s.pawn.reread? = some t.pawn ∧ s.vars.mapValues? Json.reread? = some t.vars := by
  unfold reread?
  constructor
  · intro h
    obtain ⟨pawn, hpawn, h⟩ := Option.bind_eq_some_iff.mp h
    obtain ⟨vars, hvars, h⟩ := Option.bind_eq_some_iff.mp h
    obtain rfl : ⟨pawn, vars⟩ = t := Option.some.inj h
    exact ⟨hpawn, hvars⟩
  · rintro ⟨hpawn, hvars⟩
    rw [hpawn, hvars]
    rfl

/-- A state is read as it was written just when its numbers are. -/
theorem reread?_eq_self_iff {s : State} : s.reread? = some s ↔ ∀ x ∈ s.numbers, ReadsBack x := by
  rw [reread?_eq_some, Point.reread?_eq_self_iff, NameMap.mapValues?_eq_self_iff]
  unfold numbers
  rw [List.forall_mem_append, List.forall_mem_map]
  rfl

/-- A number that cannot be read spoils the state. -/
theorem reread?_eq_none {s : State} {x : Float} (hx : x ∈ s.numbers) (hnone : Json.reread? x = none) :
    s.reread? = none := by
  rw [Option.eq_none_iff_forall_ne_some]
  intro t ht
  obtain ⟨hpawn, hvars⟩ := reread?_eq_some.mp ht
  rcases List.mem_append.mp hx with hx | hx
  · rw [Point.reread?_eq_none hx hnone] at hpawn
    cases hpawn
  · obtain ⟨v, hv, rfl⟩ := List.mem_map.mp hx
    rw [NameMap.mapValues?_eq_none hv hnone] at hvars
    cases hvars

/-- States in documents. -/
def codec : Codec State := ⟨toJson, ofJson?, fun s => s.numbers.map .quantity, 2⟩

/-- **States are read as they were written.** -/
theorem lawful : codec.Lawful where
  plain := plain_toJson
  decode_encode {depth s} hheight := by
    obtain ⟨inside, rfl, hfields⟩ := Json.height_members_le.mp hheight
    obtain ⟨deeper, rfl⟩ := Point.height_toJson_le.mp (List.forall_mem_cons.mp hfields).1
    show ofJson? (deeper + 2) s.toJson = some s ↔ ∀ figure ∈ s.numbers.map Figure.quantity, figure.ReadsBack
    rw [ofJson?_toJson, reread?_eq_self_iff, List.forall_mem_map]
    rfl
  fits {depth document s} hroom h := by
    obtain ⟨r, inside, rfl, hfields⟩ := Record.exists_of_ofJson? h
    obtain ⟨deeper, rfl⟩ := Nat.exists_eq_add_of_le' (Nat.le_of_succ_le_succ hroom)
    obtain ⟨pawn, hpawn, h⟩ := Option.bind_eq_some_iff.mp hfields
    obtain ⟨vars, hvars, h⟩ := Option.bind_eq_some_iff.mp h
    cases h
    have hplace := Point.lawful.fits_withDefault (Nat.zero_le _) (Point.fits_origin deeper) hpawn
    have hnamed := lawful_vars.fits_withDefault (Nat.le_add_left 1 deeper) (fits_no_vars deeper) hvars
    refine ⟨Json.height_members_le.mpr ⟨deeper + 1, rfl, ?_⟩, ?_⟩
    · simp only [List.forall_mem_cons]
      exact ⟨hplace.height, hnamed.height, List.forall_mem_nil _⟩
    · have hcoordinates := List.forall_mem_map.mp hplace.inRange
      have hvalues := Codec.forall_mem_flatMap.mp hnamed.inRange
      show ∀ figure ∈ (pawn.numbers ++ vars.entries.map (·.2)).map Figure.quantity, figure.InRange
      rw [List.forall_mem_map, List.forall_mem_append, List.forall_mem_map]
      refine ⟨hcoordinates, fun e he => ?_⟩
      exact List.forall_mem_singleton.mp (hvalues e he)

end State

end Colloquy.Sandbox
