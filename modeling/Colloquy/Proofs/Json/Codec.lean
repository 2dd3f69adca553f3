import Colloquy.Proofs.Json.Depth
import Colloquy.Proofs.Json.Indented
import Colloquy.Proofs.Json.Quantity

/-!
# Values and their documents

A `Codec` is how values of one kind are written and read, together with the numbers that such a
value holds. The codecs of plain values are put together to those of lists, maps and values that may
be missing; a record lists the codecs of its fields.

A codec is lawful (`Codec.Lawful`) if what was written is read as it was just when each of its
numbers is, and if conversely whatever is read, from any document at all, could have been written:
it needs no more containers than the reader was allowed to open, and holds no number that has no
literal. So what was read can be written and read again; `Lawful.read_of_text` and
`Lawful.fits_of_read` carry this from documents to texts.
-/

namespace Colloquy.Json

/-! ## Figures -/

/-- A number that a value holds: a quantity, or a count. -/
inductive Figure
  | quantity (x : Float)
  | count (n : Nat)

namespace Figure

/-- Whether documents have such numbers: quantities are finite and counts fit a word. -/
def InRange : Figure → Prop
  | quantity x => Binary64.isFinite x = true
  | count n => n < Numeral.wordBound

/-- Whether the number is read as it was written. -/
def ReadsBack : Figure → Prop
  | quantity x => Json.ReadsBack x
  | count n => (ofNat n).toNat? = some n

instance : DecidablePred InRange
  | quantity _ => inferInstanceAs (Decidable (_ = _))
  | count _ => inferInstanceAs (Decidable (_ < _))

instance : DecidablePred ReadsBack
  | quantity x => inferInstanceAs (Decidable (Json.ReadsBack x))
  | count _ => inferInstanceAs (Decidable (_ = _))

end Figure

/-! ## Codecs -/

/-- How values are written and read. -/
structure Codec (α : Type) where
  encode : α → Json
  /-- The value of a document that opens at most so many containers inside each other. -/
  decode : Nat → Json → Option α
  /-- The numbers in a value. -/
  figures : α → List Figure
  /-- How many containers the reader has to be allowed for what it puts in place of missing fields. -/
  room : Nat

namespace Codec

variable {α : Type} {c : Codec α} {depth : Nat} {value : α}

/-- The value can be written with so many containers inside each other. -/
structure Fits (c : Codec α) (depth : Nat) (value : α) : Prop where
  height : (c.encode value).height ≤ depth
  inRange : ∀ figure ∈ c.figures value, figure.InRange

/-- What was written reads as it was if its numbers do, and what was read could have been written. -/
structure Lawful (c : Codec α) : Prop where
  plain : ∀ value, (c.encode value).Plain
  decode_encode : ∀ {depth value}, (c.encode value).height ≤ depth →
    (c.decode depth (c.encode value) = some value ↔ ∀ figure ∈ c.figures value, figure.ReadsBack)
  fits : ∀ {depth document value}, c.room ≤ depth → c.decode depth document = some value →
    c.Fits depth value

/-! ### Texts -/

/-- A text that is read as the document of a value is read as the value. -/
theorem Lawful.read_of_text (h : c.Lawful) (hheight : (c.encode value).height ≤ depth) {content : String}
    (hcontent : read? content = some (c.encode value)) :
    (read? content).bind (c.decode depth) = some value ↔ ∀ figure ∈ c.figures value, figure.ReadsBack := by
  rw [hcontent]
  exact h.decode_encode hheight

/-- What a text is read as can be written again. -/
theorem Lawful.fits_of_read (h : c.Lawful) (hroom : c.room ≤ depth) {content : String}
    (hread : (read? content).bind (c.decode depth) = some value) : c.Fits depth value := by
  obtain ⟨document, -, hdecode⟩ := Option.bind_eq_some_iff.mp hread
  exact h.fits hroom hdecode

/-! ### Plain values -/

/-- Texts. -/
def text : Codec String := ⟨.text, fun _ => toText?, fun _ => [], 0⟩

/-- Quantities. -/
def quantity : Codec Float := ⟨ofFloat, fun _ => toFloat?, fun x => [.quantity x], 0⟩

/-- Counts. -/
def count : Codec Nat := ⟨ofNat, fun _ => toNat?, fun n => [.count n], 0⟩

theorem lawful_text : text.Lawful where
  plain := plain_text
  decode_encode _ := iff_of_true rfl (List.forall_mem_nil _)
  fits _ _ := ⟨Nat.zero_le _, List.forall_mem_nil _⟩

theorem lawful_quantity : quantity.Lawful where
  plain := plain_ofFloat
  decode_encode {depth x} _ := by
    show Json.ReadsBack x ↔ ∀ figure ∈ [Figure.quantity x], figure.ReadsBack
    rw [List.forall_mem_singleton]
    rfl
  fits {depth _ x} _ h := by
    refine ⟨?_, List.forall_mem_singleton.mpr (isFinite_of_toFloat? h)⟩
    exact (height_ofFloat x).trans_le (Nat.zero_le depth)

theorem lawful_count : count.Lawful where
  plain := plain_ofNat
  decode_encode {depth n} _ := by
    show (ofNat n).toNat? = some n ↔ ∀ figure ∈ [Figure.count n], figure.ReadsBack
    rw [List.forall_mem_singleton]
    rfl
  fits {_ _ n} _ h := ⟨Nat.zero_le _, List.forall_mem_singleton.mpr (lt_of_toNat? h)⟩

/-! ### Values of values -/

/-- Lists. -/
def list (c : Codec α) : Codec (List α) where
  encode values := .array (values.map c.encode)
  decode := toList? c.decode
  figures values := values.flatMap c.figures
  room := c.room + 1

/-- Maps from names. -/
def map (c : Codec α) : Codec (NameMap α) where
  encode m := .members (m.entries.map fun e => (e.1, c.encode e.2))
  decode := toMap? c.decode
  figures m := m.entries.flatMap fun e => c.figures e.2
  room := c.room + 1

/-- Values that may be missing, null standing for these. -/
def optional (c : Codec α) : Codec (Option α) where
  encode := .optional c.encode
  decode depth := toOption? (c.decode depth)
  figures value := value.toList.flatMap c.figures
  room := c.room

theorem forall_mem_flatMap {β γ : Type} {values : List β} {f : β → List γ} {P : γ → Prop} :
    (∀ figure ∈ values.flatMap f, P figure) ↔ ∀ value ∈ values, ∀ figure ∈ f value, P figure := by
  simp only [List.mem_flatMap, forall_exists_index, and_imp]
  exact ⟨fun h value hvalue figure hfigure => h figure value hvalue hfigure,
    fun h figure value hvalue hfigure => h value hvalue figure hfigure⟩

theorem Lawful.list (h : c.Lawful) : c.list.Lawful where
  plain values := by
    apply plain_array
    intro item hitem
    obtain ⟨value, -, rfl⟩ := List.mem_map.mp hitem
    exact h.plain value
  decode_encode {depth values} hheight := by
    obtain ⟨inside, rfl, hitems⟩ := height_array_le.mp hheight
    show (values.map c.encode).mapM (c.decode inside) = some values ↔ _
    rw [mapM_map_eq_self_iff]
    show _ ↔ ∀ figure ∈ values.flatMap c.figures, _
    rw [forall_mem_flatMap]
    refine forall₂_congr fun value hvalue => ?_
    exact h.decode_encode (hitems _ (List.mem_map_of_mem hvalue))
  fits {depth document values} hroom hread := by
    obtain ⟨inside, rfl, hitems⟩ := exists_of_toList? hread
    have hfits : ∀ value ∈ values, c.Fits inside value := by
      intro value hvalue
      obtain ⟨item, hitem⟩ := hitems value hvalue
      exact h.fits (Nat.le_of_succ_le_succ hroom) hitem
    refine ⟨height_array_le.mpr ⟨inside, rfl, ?_⟩, ?_⟩
    · exact List.forall_mem_map.mpr fun value hvalue => (hfits value hvalue).height
    · exact forall_mem_flatMap.mpr fun value hvalue => (hfits value hvalue).inRange

theorem Lawful.map (h : c.Lawful) : c.map.Lawful where
  plain m := by
    apply plain_members
    exact List.forall_mem_map.mpr fun e _ => h.plain e.2
  decode_encode {depth m} hheight := by
    obtain ⟨inside, rfl, hvalues⟩ := height_members_le.mp hheight
    show toMap? c.decode (inside + 1) (.members (m.entries.map fun e => (e.1, c.encode e.2))) = _ ↔ _
    rw [toMap?_members, NameMap.mapValues?_eq_self_iff]
    show _ ↔ ∀ figure ∈ m.entries.flatMap fun e => c.figures e.2, _
    rw [forall_mem_flatMap]
    refine forall₂_congr fun e he => ?_
    exact h.decode_encode (hvalues _ (List.mem_map_of_mem he))
  fits {depth document m} hroom hread := by
    obtain ⟨inside, rfl, hvalues⟩ := exists_of_toMap? hread
    have hfits : ∀ e ∈ m.entries, c.Fits inside e.2 := by
      intro e he
      obtain ⟨value, hvalue⟩ := hvalues e he
      exact h.fits (Nat.le_of_succ_le_succ hroom) hvalue
    refine ⟨height_members_le.mpr ⟨inside, rfl, ?_⟩, ?_⟩
    · exact List.forall_mem_map.mpr fun e he => (hfits e he).height
    · exact forall_mem_flatMap.mpr fun e he => (hfits e he).inRange

theorem fits_nil (inside : Nat) : c.list.Fits (inside + 1) [] :=
  ⟨height_array_le.mpr ⟨inside, rfl, List.forall_mem_nil _⟩, List.forall_mem_nil _⟩

theorem fits_none : c.optional.Fits depth none := ⟨Nat.zero_le depth, List.forall_mem_nil _⟩

theorem Fits.some (h : c.Fits depth value) : c.optional.Fits depth (some value) where
  height := h.height
  inRange := by
    show ∀ figure ∈ [value].flatMap c.figures, figure.InRange
    rw [List.flatMap_singleton]
    exact h.inRange

/-- Values that may be missing are told from null. -/
theorem Lawful.optional (h : c.Lawful) (hne : ∀ value, c.encode value ≠ null) : c.optional.Lawful where
  plain value := plain_optional fun v _ => h.plain v
  decode_encode {depth value} hheight := by
    cases value with
    | none => exact iff_of_true rfl (List.forall_mem_nil _)
    | some v =>
      have hread : toOption? (c.decode depth) (c.encode v) = (c.decode depth (c.encode v)).map some := by
        have hv := hne v
        generalize c.encode v = document at hv
        cases document with
        | null => exact absurd rfl hv
        | _ => rfl
      show toOption? (c.decode depth) (c.encode v) = some (some v) ↔
        ∀ figure ∈ [v].flatMap c.figures, figure.ReadsBack
      rw [hread, List.flatMap_singleton, ← h.decode_encode hheight]
      simp
  fits {depth document value} hroom hread := by
    rcases eq_none_or_of_toOption? hread with rfl | ⟨v, rfl, hv⟩
    · exact fits_none
    · exact (h.fits hroom hv).some

/-- Texts that may be missing are always read as they were written. -/
theorem lawful_optional_text : text.optional.Lawful := lawful_text.optional nofun

theorem decode_optional_text (value : Option String) :
    text.optional.decode depth (text.optional.encode value) = some value := by
  cases value <;> rfl

/-! ### Fields -/

section Fields

variable {r : Record} {name : String}

theorem Lawful.fits_required (h : c.Lawful) (hroom : c.room ≤ depth)
    (hread : r.required name (c.decode depth) = some value) : c.Fits depth value := by
  obtain ⟨document, hdecode⟩ := Record.exists_of_required hread
  exact h.fits hroom hdecode

theorem Lawful.fits_optional (h : c.Lawful) (hroom : c.room ≤ depth) {value : Option α}
    (hread : r.optional name (c.decode depth) = some value) : c.optional.Fits depth value := by
  rcases Record.eq_none_or_of_optional hread with rfl | ⟨v, document, rfl, hdecode⟩
  · exact fits_none
  · exact (h.fits hroom hdecode).some

theorem Lawful.fits_withDefault (h : c.Lawful) (hroom : c.room ≤ depth) {default : α}
    (hdefault : c.Fits depth default)
    (hread : r.withDefault name default (c.decode depth) = some value) : c.Fits depth value := by
  rcases Record.eq_default_or_of_withDefault hread with rfl | ⟨document, hdecode⟩
  · exact hdefault
  · exact h.fits hroom hdecode

end Fields

end Codec

end Colloquy.Json
