import Colloquy.Dialogue.Document
import Colloquy.Proofs.Expr.Document

/-!
# Dialogues that were written

A dialogue is a record of records down to its expressions. Each record opens one container, so each
of the codecs below has the room of its parts and one container more. Remarks on a dialogue are
flat: the fields of their kind stand among their own.
-/

namespace Colloquy

open Json (Figure Codec Record)

/-! ## Choices -/

namespace Choice

/-- Conditions in documents. -/
def conditionCodec : Codec (Option Expr) := Expr.codec.optional

theorem lawful_condition : conditionCodec.Lawful := Expr.lawful.optional Expr.toJson_ne_null

/-- Choices in documents. -/
def codec : Codec Choice := ⟨toJson, ofJson?, fun c => conditionCodec.figures c.condition, 1⟩

theorem lawful : codec.Lawful where
  plain c := by
    apply Json.plain_members
    simp only [List.forall_mem_cons]
    exact ⟨Json.plain_text _, Json.plain_text _, lawful_condition.plain c.condition, List.forall_mem_nil _⟩
  decode_encode {depth c} hheight := by
    obtain ⟨text, target, condition⟩ := c
    obtain ⟨inside, rfl, hfields⟩ := Json.height_members_le.mp hheight
    simp only [List.forall_mem_cons] at hfields
    obtain ⟨-, -, hcondition, -⟩ := hfields
    show ofJson? (inside + 1) (toJson ⟨text, target, condition⟩) = _ ↔ _
    unfold ofJson? toJson
    rw [Record.ofJson?_members]
    · show (do
        let read ← conditionCodec.decode inside (conditionCodec.encode condition)
        some (⟨text, target, read⟩ : Choice)) = some ⟨text, target, condition⟩ ↔
          ∀ figure ∈ conditionCodec.figures condition, figure.ReadsBack
      rw [← lawful_condition.decode_encode hcondition]
      simp [Option.bind_eq_some_iff]
    · rfl
    · decide
  fits {depth document c} _ h := by
    obtain ⟨r, inside, rfl, hfields⟩ := Record.exists_of_ofJson? h
    obtain ⟨text, -, h⟩ := Option.bind_eq_some_iff.mp hfields
    obtain ⟨target, -, h⟩ := Option.bind_eq_some_iff.mp h
    obtain ⟨condition, hcondition, h⟩ := Option.bind_eq_some_iff.mp h
    cases h
    have hfits := Expr.lawful.fits_optional (Nat.zero_le inside) hcondition
    refine ⟨Json.height_members_le.mpr ⟨inside, rfl, ?_⟩, hfits.inRange⟩
    simp only [List.forall_mem_cons]
    exact ⟨Nat.zero_le _, Nat.zero_le _, hfits.height, List.forall_mem_nil _⟩

end Choice

/-! ## After blocks -/

namespace After

/-- Blocks of code in documents. -/
def codeCodec : Codec (List Expr) := Expr.codec.list

theorem lawful_code : codeCodec.Lawful := Expr.lawful.list

/-- After blocks in documents. -/
def codec : Codec After := ⟨toJson, ofJson?, fun a => codeCodec.figures a.code, 2⟩

theorem lawful : codec.Lawful where
  plain a := by
    apply Json.plain_members
    simp only [List.forall_mem_cons]
    exact ⟨lawful_code.plain a.code, Codec.lawful_optional_text.plain a.target, List.forall_mem_nil _⟩
  decode_encode {depth a} hheight := by
    obtain ⟨code, target⟩ := a
    obtain ⟨inside, rfl, hfields⟩ := Json.height_members_le.mp hheight
    simp only [List.forall_mem_cons] at hfields
    obtain ⟨hcode, -⟩ := hfields
    show ofJson? (inside + 1) (toJson ⟨code, target⟩) = _ ↔ _
    unfold ofJson? toJson
    rw [Record.ofJson?_members]
    · show (do
        let read ← codeCodec.decode inside (codeCodec.encode code)
        let target ← Codec.text.optional.decode inside (Codec.text.optional.encode target)
        some (⟨read, target⟩ : After)) = some ⟨code, target⟩ ↔
          ∀ figure ∈ codeCodec.figures code, figure.ReadsBack
      rw [← lawful_code.decode_encode hcode, Codec.decode_optional_text]
      simp [Option.bind_eq_some_iff]
    · rfl
    · decide
  fits {depth document a} hroom h := by
    obtain ⟨r, inside, rfl, hfields⟩ := Record.exists_of_ofJson? h
    obtain ⟨code, hcode, h⟩ := Option.bind_eq_some_iff.mp hfields
    obtain ⟨target, htarget, h⟩ := Option.bind_eq_some_iff.mp h
    cases h
    have hfits := lawful_code.fits_required (Nat.le_of_succ_le_succ hroom) hcode
    have hnext := Codec.lawful_text.fits_optional (Nat.zero_le inside) htarget
    refine ⟨Json.height_members_le.mpr ⟨inside, rfl, ?_⟩, hfits.inRange⟩
    simp only [List.forall_mem_cons]
    exact ⟨hfits.height, hnext.height, List.forall_mem_nil _⟩

end After

/-! ## Labels -/

namespace Label

/-- The choices of labels in documents. -/
def choicesCodec : Codec (Option (List Choice)) := Choice.codec.list.optional

theorem lawful_choices : choicesCodec.Lawful := Choice.lawful.list.optional nofun

/-- The after blocks of labels in documents. -/
def afterCodec : Codec (Option After) := After.codec.optional

theorem lawful_after : afterCodec.Lawful := After.lawful.optional nofun

/-- Labels in documents. -/
def codec : Codec Label :=
  ⟨toJson, ofJson?, fun l => choicesCodec.figures l.choices ++ afterCodec.figures l.after, 3⟩

theorem lawful : codec.Lawful where
  plain l := by
    apply Json.plain_members
    simp only [List.forall_mem_cons]
    exact ⟨Json.plain_text _, Json.plain_text _, lawful_choices.plain l.choices, lawful_after.plain l.after,
      List.forall_mem_nil _⟩
  decode_encode {depth l} hheight := by
    obtain ⟨name, text, choices, after⟩ := l
    obtain ⟨inside, rfl, hfields⟩ := Json.height_members_le.mp hheight
    simp only [List.forall_mem_cons] at hfields
    obtain ⟨-, -, hchoices, hafter, -⟩ := hfields
    show ofJson? (inside + 1) (toJson ⟨name, text, choices, after⟩) = _ ↔ _
    unfold ofJson? toJson
    rw [Record.ofJson?_members]
    · show (do
        let read ← choicesCodec.decode inside (choicesCodec.encode choices)
        let block ← afterCodec.decode inside (afterCodec.encode after)
        some (⟨name, text, read, block⟩ : Label)) = some ⟨name, text, choices, after⟩ ↔
          ∀ figure ∈ choicesCodec.figures choices ++ afterCodec.figures after, figure.ReadsBack
      rw [List.forall_mem_append, ← lawful_choices.decode_encode hchoices, ← lawful_after.decode_encode hafter]
      simp [Option.bind_eq_some_iff]
    · rfl
    · decide
  fits {depth document l} hroom h := by
    obtain ⟨r, inside, rfl, hfields⟩ := Record.exists_of_ofJson? h
    obtain ⟨name, -, h⟩ := Option.bind_eq_some_iff.mp hfields
    obtain ⟨text, -, h⟩ := Option.bind_eq_some_iff.mp h
    obtain ⟨choices, hchoices, h⟩ := Option.bind_eq_some_iff.mp h
    obtain ⟨after, hafter, h⟩ := Option.bind_eq_some_iff.mp h
    cases h
    have hfits := Choice.lawful.list.fits_optional (Nat.le_of_succ_le_succ hroom) hchoices
    have hblock := After.lawful.fits_optional (Nat.le_of_succ_le_succ hroom) hafter
    refine ⟨Json.height_members_le.mpr ⟨inside, rfl, ?_⟩, ?_⟩
    · simp only [List.forall_mem_cons]
      exact ⟨Nat.zero_le _, Nat.zero_le _, hfits.height, hblock.height, List.forall_mem_nil _⟩
    · exact List.forall_mem_append.mpr ⟨hfits.inRange, hblock.inRange⟩

end Label

/-! ## Dialogues -/

namespace Dialogue

/-- Labels by name in documents. -/
def labelsCodec : Codec (NameMap Label) := Label.codec.map

theorem lawful_labels : labelsCodec.Lawful := Label.lawful.map

/-- Dialogues in documents. -/
def codec : Codec Dialogue := ⟨toJson, ofJson?, fun d => labelsCodec.figures d.labels, 5⟩

/-- **Dialogues are read as they were written.** -/
theorem lawful : codec.Lawful where
  plain d := by
    apply Json.plain_members
    simp only [List.forall_mem_cons]
    exact ⟨Json.plain_text _, lawful_labels.plain d.labels, List.forall_mem_nil _⟩
  decode_encode {depth d} hheight := by
    obtain ⟨initial, labels⟩ := d
    obtain ⟨inside, rfl, hfields⟩ := Json.height_members_le.mp hheight
    simp only [List.forall_mem_cons] at hfields
    obtain ⟨-, hlabels, -⟩ := hfields
    show ofJson? (inside + 1) (toJson ⟨initial, labels⟩) = _ ↔ _
    unfold ofJson? toJson
    rw [Record.ofJson?_members]
    · show (do
        let read ← labelsCodec.decode inside (labelsCodec.encode labels)
        some (⟨initial, read⟩ : Dialogue)) = some ⟨initial, labels⟩ ↔
          ∀ figure ∈ labelsCodec.figures labels, figure.ReadsBack
      rw [← lawful_labels.decode_encode hlabels]
      simp [Option.bind_eq_some_iff]
    · rfl
    · decide
  fits {depth document d} hroom h := by
    obtain ⟨r, inside, rfl, hfields⟩ := Record.exists_of_ofJson? h
    obtain ⟨initial, -, h⟩ := Option.bind_eq_some_iff.mp hfields
    obtain ⟨labels, hlabels, h⟩ := Option.bind_eq_some_iff.mp h
    cases h
    have hfits := lawful_labels.fits_required (Nat.le_of_succ_le_succ hroom) hlabels
    refine ⟨Json.height_members_le.mpr ⟨inside, rfl, ?_⟩, hfits.inRange⟩
    simp only [List.forall_mem_cons]
    exact ⟨Nat.zero_le _, hfits.height, List.forall_mem_nil _⟩

end Dialogue

/-! ## Remarks -/

namespace Diagnostic

/-- Remarks in documents. They hold no numbers. -/
def codec : Codec Diagnostic := ⟨toJson, ofJson?, fun _ => [], 0⟩

/-- The values of the members are all texts. -/
theorem toJson_eq (d : Diagnostic) : ∃ fields : List (String × String),
    d.toJson = .members (fields.map fun field => (field.1, .text field.2)) := by
  obtain ⟨label, kind, message⟩ := d
  cases kind with
  | unreachableAfter =>
    exact ⟨[("label", label), ("kind", "unreachableAfter"), ("message", message)], rfl⟩
  | danglingTarget target =>
    exact ⟨[("label", label), ("kind", "danglingTarget"), ("target", target), ("message", message)], rfl⟩

/-- **Remarks are read as they were written.** -/
theorem lawful : codec.Lawful where
  plain d := by
    obtain ⟨fields, hfields⟩ := toJson_eq d
    show d.toJson.Plain
    rw [hfields]
    exact Json.plain_members (List.forall_mem_map.mpr fun field _ => Json.plain_text field.2)
  decode_encode {depth d} hheight := by
    obtain ⟨label, kind, message⟩ := d
    obtain ⟨inside, rfl, -⟩ := Json.height_members_le.mp hheight
    refine iff_of_true ?_ (List.forall_mem_nil _)
    cases kind <;> rfl
  fits {depth document d} _ h := by
    refine ⟨?_, List.forall_mem_nil _⟩
    cases depth with
    | zero => cases h
    | succ inside =>
      obtain ⟨fields, hfields⟩ := toJson_eq d
      show d.toJson.height ≤ inside + 1
      rw [hfields, Json.height_members_le]
      exact ⟨inside, rfl, List.forall_mem_map.mpr fun field _ => Nat.zero_le inside⟩

end Diagnostic

end Colloquy
