import Colloquy.Expr.Document
import Colloquy.Proofs.Json.Codec

/-!
# Expressions that were written

The document of an expression reads as the expression if its numbers do, and whatever is read as an
expression, kept or not, could have been written where it stood (`Expr.lawful`). A list takes two
containers, the object that names its kind and the array of its items, and leaves its items that
much less room in both directions.
-/

namespace Colloquy.Expr

open Json (Figure Codec)

mutual

/-- The numbers in an expression. -/
def figures : Expr → List Figure
  | number value => [.quantity value]
  | text _ => []
  | symbol _ => []
  | list items => figuresAll items

/-- The numbers in some expressions. -/
def figuresAll : List Expr → List Figure
  | [] => []
  | e :: rest => figures e ++ figuresAll rest

end

theorem figuresAll_eq (items : List Expr) : figuresAll items = items.flatMap figures := by
  induction items with
  | nil => rfl
  | cons e rest ih => rw [figuresAll, List.flatMap_cons, ih]

theorem toJsonAll_eq (items : List Expr) : toJsonAll items = items.map toJson := by
  induction items with
  | nil => rfl
  | cons e rest ih => rw [toJsonAll, List.map_cons, ih]

/-- Expressions in documents. -/
def codec : Codec Expr := ⟨toJson, ofJson?, figures, 0⟩

/-! ## Writing -/

theorem plain_variant (kind : String) {content : Json} (h : content.Plain) : (variant kind content).Plain := by
  apply Json.plain_members
  simp [Json.plain_text, h]

theorem plain_toJson : ∀ e : Expr, e.toJson.Plain
  | number value => plain_variant _ (Json.plain_ofFloat value)
  | text value => plain_variant _ (Json.plain_text value)
  | symbol name => plain_variant _ (Json.plain_text name)
  | list items => by
    apply plain_variant
    apply Json.plain_array
    rw [toJsonAll_eq]
    intro document hdocument
    obtain ⟨e, _, rfl⟩ := List.mem_map.mp hdocument
    exact plain_toJson e

theorem toJson_ne_null (e : Expr) : e.toJson ≠ .null := by
  cases e <;> exact nofun

/-- A variant takes one container more than its content. -/
theorem height_variant_le {kind : String} {content : Json} {depth : Nat} :
    (variant kind content).height ≤ depth ↔ ∃ inside, depth = inside + 1 ∧ content.height ≤ inside := by
  unfold variant
  rw [Json.height_members_le]
  simp [Json.height_text]

/-! ## Reading -/

/-- What is read below a first container. -/
theorem ofSource?_succ (source : Json.Source) (inside : Nat) (document : Json) :
    ofSource? source (inside + 1) document = (do
      let (kind, source, content) ← Json.taggedContent? kinds source (inside + 1) document
      match kind with
      | "number" => content.toFloat?.map number
      | "text" => content.toText?.map text
      | "symbol" => content.toText?.map symbol
      | "list" => (Json.toList? (ofSource? source) inside content).map list
      | _ => none) := by
  -- the recursion passes through a match on the depth and the content at once, which has no
  -- equation of its own: both are taken apart here
  delta ofSource?
  refine congrArg (Option.bind (Json.taggedContent? kinds source (inside + 1) document)) (funext ?_)
  intro tagged
  obtain ⟨kind, source, content⟩ := tagged
  dsimp only
  split
  · rfl
  · rfl
  · rfl
  · cases inside with
    | zero => rfl
    | succ deeper => cases content <;> rfl
  · simp_all

/-- A variant that was written is read by its kind from its content. -/
theorem taggedContent?_variant (source : Json.Source) (inside : Nat) (kind : String) (content : Json) :
    Json.taggedContent? kinds source (inside + 1) (variant kind content) = some (kind, source, content) := rfl

/-- What was written is read, in a document and out of what was kept of one. -/
theorem ofSource?_toJson {source : Json.Source} : ∀ {e : Expr} {depth : Nat}, e.toJson.height ≤ depth →
    (ofSource? source depth e.toJson = some e ↔ ∀ figure ∈ e.figures, figure.ReadsBack)
  | number value, depth, h => by
    obtain ⟨inside, rfl, -⟩ := height_variant_le.mp h
    rw [toJson, ofSource?_succ, taggedContent?_variant]
    show (Json.reread? value).map number = some (number value) ↔
      ∀ figure ∈ [Figure.quantity value], figure.ReadsBack
    rw [Option.map_eq_some_iff, List.forall_mem_singleton]
    simp [Figure.ReadsBack, Json.ReadsBack]
  | text value, depth, h => by
    obtain ⟨inside, rfl, -⟩ := height_variant_le.mp h
    rw [toJson, ofSource?_succ, taggedContent?_variant]
    exact iff_of_true rfl (List.forall_mem_nil _)
  | symbol name, depth, h => by
    obtain ⟨inside, rfl, -⟩ := height_variant_le.mp h
    rw [toJson, ofSource?_succ, taggedContent?_variant]
    exact iff_of_true rfl (List.forall_mem_nil _)
  | list items, depth, h => by
    obtain ⟨inside, rfl, harray⟩ := height_variant_le.mp h
    obtain ⟨deeper, rfl, hitems⟩ := Json.height_array_le.mp harray
    rw [toJsonAll_eq] at hitems
    have heach : ∀ e ∈ items, (ofSource? source deeper e.toJson = some e ↔
        ∀ figure ∈ e.figures, figure.ReadsBack) := by
      intro e he
      exact ofSource?_toJson (hitems _ (List.mem_map_of_mem he))
    rw [toJson, ofSource?_succ, taggedContent?_variant, toJsonAll_eq]
    show ((items.map toJson).mapM (ofSource? source deeper)).map list = some (list items) ↔
      ∀ figure ∈ figuresAll items, figure.ReadsBack
    rw [figuresAll_eq, Codec.forall_mem_flatMap, ← forall₂_congr heach, ← mapM_map_eq_self_iff,
      Option.map_eq_some_iff]
    simp

/-- What was read, from a document or from what was kept of one, could have been written there. -/
theorem fits_of_ofSource? {source : Json.Source} {document : Json} {e : Expr} {depth : Nat}
    (h : ofSource? source depth document = some e) : codec.Fits depth e := by
  induction depth using Nat.strong_induction_on generalizing source document e with
  | _ depth ih =>
    cases depth with
    | zero => cases h
    | succ inside =>
      rw [ofSource?_succ] at h
      obtain ⟨⟨kind, source, content⟩, -, h⟩ := Option.bind_eq_some_iff.mp h
      dsimp only at h
      split at h
      · obtain ⟨x, hx, rfl⟩ := Option.map_eq_some_iff.mp h
        refine ⟨height_variant_le.mpr ⟨inside, rfl, ?_⟩, ?_⟩
        · exact (Json.height_ofFloat x).trans_le (Nat.zero_le inside)
        · exact List.forall_mem_singleton.mpr (Json.isFinite_of_toFloat? hx)
      · obtain ⟨value, -, rfl⟩ := Option.map_eq_some_iff.mp h
        exact ⟨height_variant_le.mpr ⟨inside, rfl, Nat.zero_le inside⟩, List.forall_mem_nil _⟩
      · obtain ⟨name, -, rfl⟩ := Option.map_eq_some_iff.mp h
        exact ⟨height_variant_le.mpr ⟨inside, rfl, Nat.zero_le inside⟩, List.forall_mem_nil _⟩
      · obtain ⟨items, hlist, rfl⟩ := Option.map_eq_some_iff.mp h
        obtain ⟨deeper, rfl, hitems⟩ := Json.exists_of_toList? hlist
        -- the items were read two containers further in
        have hfits : ∀ e ∈ items, codec.Fits deeper e := by
          intro e he
          obtain ⟨item, hitem⟩ := hitems e he
          exact ih deeper (by omega) hitem
        refine ⟨height_variant_le.mpr ⟨deeper + 1, rfl, Json.height_array_le.mpr ⟨deeper, rfl, ?_⟩⟩, ?_⟩
        · rw [toJsonAll_eq]
          exact List.forall_mem_map.mpr fun e he => (hfits e he).height
        · show ∀ figure ∈ figuresAll items, figure.InRange
          rw [figuresAll_eq, Codec.forall_mem_flatMap]
          exact fun e he => (hfits e he).inRange
      · cases h

/-- **Expressions are read as they were written.** -/
theorem lawful : codec.Lawful where
  plain := plain_toJson
  decode_encode := ofSource?_toJson
  fits _ h := fits_of_ofSource? h

end Colloquy.Expr
