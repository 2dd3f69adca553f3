import Colloquy.Proofs.Playthrough.Document
import Colloquy.Proofs.Sandbox.Document
import Colloquy.Replay.Document

/-!
# Test cases that were written

An event or an action stands beside its kind, and all of it is read to its end before its fields are
looked at; what was written can be read to its end, texts always and counts where they are in range.
Of a test case every field but the schema has a default, and each default could have been written
too. So whatever a file is read as could have been written (`TestCase.fits_of_read`).
-/

namespace Colloquy.Replay

open Json (Figure Codec Record)

/-! ## Events -/

namespace Event

theorem areReadable_texts (depth : Nat) : ∀ values : List String,
    Json.areReadable depth (values.map .text) = true
  | [] => rfl
  | value :: rest => by
    rw [List.map_cons, Json.areReadable, areReadable_texts depth rest]
    rfl

/-- Texts of choices in documents. -/
def choicesCodec : Codec (List String) := Codec.text.list

theorem lawful_choices : choicesCodec.Lawful := Codec.lawful_text.list

/-- Events in documents. They hold no numbers. -/
def codec : Codec Event := ⟨toJson, ofJson?, fun _ => [], 2⟩

theorem plain_toJson (e : Event) : e.toJson.Plain := by
  cases e with
  | prompt text choices =>
    apply Json.plain_members
    simp only [List.forall_mem_cons]
    exact ⟨Json.plain_text _, Json.plain_text _, lawful_choices.plain choices, List.forall_mem_nil _⟩
  | ignored | finished => exact Json.plain_members (List.forall_mem_singleton.mpr (Json.plain_text _))

/-- An event opens one container, and a prompt one more for its choices. -/
theorem ofJson?_toJson {e : Event} {depth : Nat} (h : e.toJson.height ≤ depth) :
    ofJson? depth e.toJson = some e := by
  obtain ⟨inside, rfl⟩ : ∃ inside, depth = inside + 1 := by
    cases e <;> exact (Json.height_members_le.mp h).imp fun inside hfields => hfields.1
  unfold ofJson?
  cases e with
  | prompt text choices =>
    obtain ⟨_, hinside, hfields⟩ := Json.height_members_le.mp h
    cases hinside
    simp only [List.forall_mem_cons] at hfields
    obtain ⟨-, -, hchoices, -⟩ := hfields
    have hread : choicesCodec.decode inside (choicesCodec.encode choices) = some choices := by
      rw [lawful_choices.decode_encode hchoices]
      exact Codec.forall_mem_flatMap.mpr fun choice _ => List.forall_mem_nil _
    obtain ⟨deeper, rfl, -⟩ := Json.height_array_le.mp hchoices
    have hknown : eventFields? "prompt" = some ["text", "choices"] := rfl
    unfold toJson
    rw [Json.taggedRecord?_members hknown rfl (by decide)]
    · show (do
        let choices ← choicesCodec.decode (deeper + 1) (choicesCodec.encode choices)
        some (Event.prompt text choices)) = _
      rw [hread]
      rfl
    · simp only [List.forall_mem_cons]
      exact ⟨rfl, areReadable_texts deeper choices, List.forall_mem_nil _⟩
  | ignored | finished =>
    unfold toJson
    rw [Json.taggedRecord?_members rfl rfl (by decide) (List.forall_mem_nil _)]
    rfl

theorem height_toJson_le (e : Event) (inside : Nat) : e.toJson.height ≤ inside + 2 := by
  cases e with
  | prompt text choices =>
    refine Json.height_members_le.mpr ⟨inside + 1, rfl, ?_⟩
    simp only [List.forall_mem_cons]
    refine ⟨Nat.zero_le _, Nat.zero_le _, Json.height_array_le.mpr ⟨inside, rfl, ?_⟩, List.forall_mem_nil _⟩
    exact List.forall_mem_map.mpr fun choice _ => Nat.zero_le inside
  | ignored | finished =>
    exact Json.height_members_le.mpr ⟨inside + 1, rfl, List.forall_mem_singleton.mpr (Nat.zero_le _)⟩

/-- Events are read as they were written. -/
theorem lawful : codec.Lawful where
  plain := plain_toJson
  decode_encode hheight := iff_of_true (ofJson?_toJson hheight) (List.forall_mem_nil _)
  fits {depth document e} hroom h := by
    refine ⟨?_, List.forall_mem_nil _⟩
    obtain ⟨inside, rfl⟩ := Nat.exists_eq_add_of_le' hroom
    exact e.height_toJson_le inside

end Event

/-! ## Actions -/

/-- Actions in documents. -/
def actionCodec : Codec Nat := ⟨actionToJson, actionOfJson?, fun index => [.count index], 0⟩

theorem fits_of_actionOfJson? {depth index : Nat} {document : Json}
    (h : actionOfJson? depth document = some index) : actionCodec.Fits depth index := by
  unfold actionOfJson? at h
  obtain ⟨⟨kind, r, inside⟩, hr, hfields⟩ := Option.bind_eq_some_iff.mp h
  obtain rfl := Json.depth_of_taggedRecord? hr
  have hindex := Codec.lawful_count.fits_required (Nat.zero_le inside) hfields
  refine ⟨Json.height_members_le.mpr ⟨inside, rfl, ?_⟩, hindex.inRange⟩
  simp only [List.forall_mem_cons]
  exact ⟨Nat.zero_le _, hindex.height, List.forall_mem_nil _⟩

/-- Actions are read as they were written. -/
theorem lawful_action : actionCodec.Lawful where
  plain index := by
    apply Json.plain_members
    simp only [List.forall_mem_cons]
    exact ⟨Json.plain_text _, Json.plain_ofNat index, List.forall_mem_nil _⟩
  decode_encode {depth index} hheight := by
    obtain ⟨inside, rfl, -⟩ := Json.height_members_le.mp hheight
    show actionOfJson? (inside + 1) (actionToJson index) = some index ↔
      ∀ figure ∈ [Figure.count index], figure.ReadsBack
    rw [List.forall_mem_singleton]
    by_cases hrange : index < Numeral.wordBound
    · refine iff_of_true ?_ (Json.toNat?_ofNat hrange)
      have hknown : actionFields? "choose" = some ["index"] := rfl
      unfold actionOfJson? actionToJson
      rw [Json.taggedRecord?_members hknown rfl (by decide)]
      · exact Json.toNat?_ofNat hrange
      · exact List.forall_mem_singleton.mpr (Json.isReadable_ofNat hrange inside)
    · -- such a count is neither read out of an action nor on its own
      refine iff_of_false ?_ fun hread => hrange (Json.lt_of_toNat? hread)
      intro hread
      have hfits := (fits_of_actionOfJson? hread).inRange
      exact hrange (hfits (.count index) (List.mem_singleton.mpr rfl))
  fits _ h := fits_of_actionOfJson? h

/-! ## Test cases -/

namespace TestCase

/-- Lists of actions in documents. -/
def actionsCodec : Codec (List Nat) := actionCodec.list

theorem lawful_actions : actionsCodec.Lawful := lawful_action.list

/-- Lists of events in documents. -/
def eventsCodec : Codec (List Event) := Event.codec.list

theorem lawful_events : eventsCodec.Lawful := Event.lawful.list

/-- Expected pawns in documents. -/
def pawnCodec : Codec (Option Sandbox.Point) := Sandbox.Point.codec.optional

theorem lawful_pawn : pawnCodec.Lawful := Sandbox.Point.lawful.optional nofun

/-- Test cases in documents. -/
def codec : Codec TestCase where
  encode := toJson
  decode := ofJson?
  figures c := Sandbox.varsCodec.figures c.vars ++ actionsCodec.figures c.actions ++
    Sandbox.varsCodec.figures c.expectedVars ++ pawnCodec.figures c.expectedPawn
  room := 4

/-- **Test cases are read as they were written.** -/
theorem lawful : codec.Lawful where
  plain c := by
    apply Json.plain_members
    simp only [List.forall_mem_cons]
    exact ⟨Json.plain_text _, Sandbox.lawful_vars.plain c.vars, Indexing.lawful.plain c.indexing,
      lawful_actions.plain c.actions, lawful_events.plain c.expectedEvents,
      Sandbox.lawful_vars.plain c.expectedVars, lawful_pawn.plain c.expectedPawn, List.forall_mem_nil _⟩
  decode_encode {depth c} hheight := by
    obtain ⟨schema, vars, indexing, actions, events, expectedVars, pawn⟩ := c
    obtain ⟨inside, rfl, hfields⟩ := Json.height_members_le.mp hheight
    simp only [List.forall_mem_cons] at hfields
    obtain ⟨-, hvars, hindexing, hactions, hevents, hexpected, hpawn, -⟩ := hfields
    show ofJson? (inside + 1) (toJson ⟨schema, vars, indexing, actions, events, expectedVars, pawn⟩) = _ ↔ _
    unfold ofJson? toJson
    rw [Record.ofJson?_members]
    · show (do
        let readVars ← Sandbox.varsCodec.decode inside (Sandbox.varsCodec.encode vars)
        let readIndexing ← Indexing.codec.decode inside (Indexing.codec.encode indexing)
        let readActions ← actionsCodec.decode inside (actionsCodec.encode actions)
        let readEvents ← eventsCodec.decode inside (eventsCodec.encode events)
        let readExpected ← Sandbox.varsCodec.decode inside (Sandbox.varsCodec.encode expectedVars)
        let readPawn ← pawnCodec.decode inside (pawnCodec.encode pawn)
        some (⟨schema, readVars, readIndexing, readActions, readEvents, readExpected, readPawn⟩ : TestCase))
          = some ⟨schema, vars, indexing, actions, events, expectedVars, pawn⟩ ↔
        ∀ figure ∈ Sandbox.varsCodec.figures vars ++ actionsCodec.figures actions ++
          Sandbox.varsCodec.figures expectedVars ++ pawnCodec.figures pawn, figure.ReadsBack
      have hcounted := (Indexing.lawful.decode_encode hindexing).mpr (List.forall_mem_nil _)
      have hseen := (lawful_events.decode_encode hevents).mpr
        (Codec.forall_mem_flatMap.mpr fun event _ => List.forall_mem_nil _)
      rw [List.forall_mem_append, List.forall_mem_append, List.forall_mem_append,
        ← Sandbox.lawful_vars.decode_encode hvars, ← lawful_actions.decode_encode hactions,
        ← Sandbox.lawful_vars.decode_encode hexpected, ← lawful_pawn.decode_encode hpawn, hcounted, hseen]
      simp [Option.bind_eq_some_iff, and_assoc]
    · rfl
    · decide
  fits {depth document c} hroom h := by
    obtain ⟨r, inside, rfl, hfields⟩ := Record.exists_of_ofJson? h
    have hinside : 3 ≤ inside := Nat.le_of_succ_le_succ hroom
    obtain ⟨deeper, rfl⟩ := Nat.exists_eq_add_of_le' ((Nat.le_add_left 1 2).trans hinside)
    obtain ⟨schema, -, h⟩ := Option.bind_eq_some_iff.mp hfields
    obtain ⟨vars, hvars, h⟩ := Option.bind_eq_some_iff.mp h
    obtain ⟨indexing, hindexing, h⟩ := Option.bind_eq_some_iff.mp h
    obtain ⟨actions, hactions, h⟩ := Option.bind_eq_some_iff.mp h
    obtain ⟨events, hevents, h⟩ := Option.bind_eq_some_iff.mp h
    obtain ⟨expectedVars, hexpected, h⟩ := Option.bind_eq_some_iff.mp h
    obtain ⟨pawn, hpawn, h⟩ := Option.bind_eq_some_iff.mp h
    cases h
    have hempty := Sandbox.fits_no_vars deeper
    have hgiven := Sandbox.lawful_vars.fits_withDefault (Nat.le_add_left 1 deeper) hempty hvars
    have hcounted := Indexing.lawful.fits_withDefault (Nat.zero_le _) (Indexing.fits_declared _) hindexing
    have htaken := lawful_actions.fits_withDefault (Nat.le_add_left 1 deeper) (Codec.fits_nil deeper) hactions
    have hseen := lawful_events.fits_withDefault hinside (Codec.fits_nil deeper) hevents
    have hleft := Sandbox.lawful_vars.fits_withDefault (Nat.le_add_left 1 deeper) hempty hexpected
    have hplace := lawful_pawn.fits_withDefault (Nat.zero_le _) Codec.fits_none hpawn
    refine ⟨Json.height_members_le.mpr ⟨deeper + 1, rfl, ?_⟩, ?_⟩
    · simp only [List.forall_mem_cons]
      exact ⟨Nat.zero_le _, hgiven.height, hcounted.height, htaken.height, hseen.height, hleft.height,
        hplace.height, List.forall_mem_nil _⟩
    · show ∀ figure ∈ Sandbox.varsCodec.figures vars ++ actionsCodec.figures actions ++
        Sandbox.varsCodec.figures expectedVars ++ pawnCodec.figures pawn, figure.InRange
      rw [List.forall_mem_append, List.forall_mem_append, List.forall_mem_append]
      exact ⟨⟨⟨hgiven.inRange, htaken.inRange⟩, hleft.inRange⟩, hplace.inRange⟩

/-! ### Files -/

section Read

variable {d : Disk} {path : String} {c : TestCase}

/-- The numbers in a test case. -/
theorem forall_mem_figures {P : Figure → Prop} : (∀ figure ∈ codec.figures c, P figure) ↔
    (∀ e ∈ c.vars.entries, P (.quantity e.2)) ∧ (∀ index ∈ c.actions, P (.count index)) ∧
      (∀ e ∈ c.expectedVars.entries, P (.quantity e.2)) ∧
      ∀ p ∈ c.expectedPawn.toList, ∀ x ∈ p.numbers, P (.quantity x) := by
  show (∀ figure ∈ Sandbox.varsCodec.figures c.vars ++ actionsCodec.figures c.actions ++
    Sandbox.varsCodec.figures c.expectedVars ++ pawnCodec.figures c.expectedPawn, P figure) ↔ _
  have hvars (m : NameMap Float) : (∀ figure ∈ Sandbox.varsCodec.figures m, P figure) ↔
      ∀ e ∈ m.entries, P (.quantity e.2) :=
    Codec.forall_mem_flatMap.trans (forall₂_congr fun e _ => List.forall_mem_singleton)
  have hactions : (∀ figure ∈ actionsCodec.figures c.actions, P figure) ↔
      ∀ index ∈ c.actions, P (.count index) :=
    Codec.forall_mem_flatMap.trans (forall₂_congr fun index _ => List.forall_mem_singleton)
  have hpawn : (∀ figure ∈ pawnCodec.figures c.expectedPawn, P figure) ↔
      ∀ p ∈ c.expectedPawn.toList, ∀ x ∈ p.numbers, P (.quantity x) :=
    Codec.forall_mem_flatMap.trans (forall₂_congr fun p _ => List.forall_mem_map)
  rw [List.forall_mem_append, List.forall_mem_append, List.forall_mem_append, hvars, hactions, hvars,
    hpawn, and_assoc, and_assoc]

theorem read_eq_ok : read d path = .ok c ↔ ∃ text, d.text? path = some text ∧
    (Json.read? text).bind (ofJson? Json.depthLimit) = some c ∧ c.schema = currentSchema := by
  constructor
  · intro h
    unfold read at h
    cases htext : d.text? path with
    | none =>
      rw [htext] at h
      cases h
    | some text =>
      rw [htext] at h
      dsimp only at h
      cases hfound : (Json.read? text).bind (ofJson? Json.depthLimit) with
      | none =>
        rw [hfound] at h
        cases h
      | some found =>
        rw [hfound] at h
        dsimp only at h
        by_cases hschema : found.schema = currentSchema
        · rw [if_pos hschema] at h
          cases h
          exact ⟨text, rfl, hfound, hschema⟩
        · rw [if_neg hschema] at h
          cases h
  · intro h
    obtain ⟨text, htext, hfound, hschema⟩ := h
    unfold read
    rw [htext]
    dsimp only
    rw [hfound]
    exact if_pos hschema

/-- What was read from a file can be written. -/
theorem fits_of_read (h : read d path = .ok c) : codec.Fits Json.depthLimit c := by
  obtain ⟨text, -, hread, -⟩ := read_eq_ok.mp h
  exact lawful.fits_of_read (by decide) hread

/-- A test case is read from its text if each of its numbers is. -/
theorem read_of_text (hfile : d.text? path = some c.toJson.compact) (hschema : c.schema = currentSchema)
    (hheight : c.toJson.height ≤ Json.depthLimit)
    (hfigures : ∀ figure ∈ codec.figures c, figure.ReadsBack) : read d path = .ok c :=
  read_eq_ok.mpr ⟨_, hfile,
    (lawful.read_of_text hheight (Json.read?_compact (lawful.plain c))).mpr hfigures, hschema⟩

end Read

end TestCase

end Colloquy.Replay
