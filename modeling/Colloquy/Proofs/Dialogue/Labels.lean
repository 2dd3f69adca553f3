import Colloquy.Proofs.Dialogue.Forms
import Mathlib.Data.List.Forall2

/-!
# The forms of labels

A label form has *parts*, one for each of its forms, and what makes it well formed is said of the
list of the parts: exactly one text and at most one after block (`IsLabel`).

The compiler reads the forms from left to right over a draft. At each point the draft *holds* the
parts read so far (`LabelDraft.Holds`), and no other draft does, so a run over the forms succeeds
exactly when the forms have parts that some draft can hold. This argument is made once, for any
draft (`HoldsParts.foldlM_eq_ok`): it asks what one form does, that the draft is fixed by the parts,
and that the first of some parts can be held if all of them can. Main statement, `compileLabel_eq_ok`:
a label form is accepted when it is in the grammar, and gives the label that the grammar gives.
-/

namespace Colloquy

variable {α β π ε : Type}

/-! ## Reading forms over a draft -/

/-- A reader whose drafts hold the parts of the items read so far: an item is read when it has a part
that can be held after the others, a draft is fixed by the parts it holds, and the first of some
parts can be held if all of them can. -/
structure HoldsParts (f : β → α → Except ε β) (IsPart : α → π → Prop) (Holds : β → List π → Prop) :
    Prop where
  step : ∀ {draft seen item draft'}, Holds draft seen →
    (f draft item = .ok draft' ↔ ∃ part, IsPart item part ∧ Holds draft' (seen ++ [part]))
  unique : ∀ {draft draft' seen}, Holds draft seen → Holds draft' seen → draft = draft'
  before : ∀ {draft seen more}, Holds draft (seen ++ more) → ∃ draft', Holds draft' seen

namespace HoldsParts

variable {f : β → α → Except ε β} {IsPart : α → π → Prop} {Holds : β → List π → Prop}
  (reader : HoldsParts f IsPart Holds)

include reader

/-- From a draft that holds some parts, a run over the items succeeds when the items have parts that
can be held after those, and ends in the draft that holds them all. -/
theorem foldlM_after_eq_ok : ∀ {items : List α} {draft : β} {seen : List π} {draft' : β},
    Holds draft seen → (items.foldlM f draft = .ok draft' ↔
      ∃ parts, List.Forall₂ IsPart items parts ∧ Holds draft' (seen ++ parts)) := by
  intro items
  induction items with
  | nil =>
    intro draft seen draft' hseen
    constructor
    · intro h
      cases h
      exact ⟨[], .nil, by rwa [List.append_nil]⟩
    · rintro ⟨parts, hparts, hheld⟩
      cases hparts
      rw [List.append_nil] at hheld
      rw [reader.unique hseen hheld]
      rfl
  | cons item items ih =>
    intro draft seen draft' hseen
    rw [List.foldlM_cons, bind_eq_ok]
    constructor
    · rintro ⟨next, hitem, hrest⟩
      obtain ⟨part, hpart, hnext⟩ := (reader.step hseen).mp hitem
      obtain ⟨parts, hparts, hheld⟩ := (ih hnext).mp hrest
      exact ⟨part :: parts, .cons hpart hparts, by rwa [List.append_assoc] at hheld⟩
    · rintro ⟨parts, hparts, hheld⟩
      cases hparts with
      | @cons _ part _ parts hpart hparts =>
        have hsplit : seen ++ part :: parts = (seen ++ [part]) ++ parts := by simp
        rw [hsplit] at hheld
        -- the draft in between is the one that holds the first part and not yet the others
        obtain ⟨next, hnext⟩ := reader.before hheld
        have hitem : f draft item = .ok next := (reader.step hseen).mpr ⟨part, hpart, hnext⟩
        exact ⟨next, hitem, (ih hnext).mpr ⟨parts, hparts, hheld⟩⟩

/-- A run over the items succeeds when the items have parts that can be held, and ends in the draft
that holds them. -/
theorem foldlM_eq_ok {items : List α} {start draft : β} (hstart : Holds start []) :
    items.foldlM f start = .ok draft ↔
      ∃ parts, List.Forall₂ IsPart items parts ∧ Holds draft parts :=
  reader.foldlM_after_eq_ok hstart

end HoldsParts

theorem option_eq_of_toList_eq {o o' : Option α} (h : o.toList = o'.toList) : o = o' := by
  cases o <;> cases o' <;> simp at h ⊢
  exact h

theorem toList_eq_concat {o : Option α} {seen : List α} {a : α} :
    o.toList = seen ++ [a] ↔ seen = [] ∧ o = some a := by
  cases o with
  | none => simp
  | some b => cases seen <;> simp

theorem exists_toList_eq {o : Option α} {seen more : List α} (h : o.toList = seen ++ more) :
    ∃ o' : Option α, o'.toList = seen := by
  cases seen with
  | nil => exact ⟨none, rfl⟩
  | cons a rest =>
    cases o with
    | none => simp at h
    | some b =>
      have hrest : rest = [] := by
        simp only [Option.toList_some, List.cons_append, List.cons.injEq] at h
        exact (List.append_eq_nil_iff.mp h.2.symm).1
      exact ⟨some a, by rw [hrest]; rfl⟩

theorem filterMap_concat (f : α → Option β) (seen : List α) (a : α) :
    (seen ++ [a]).filterMap f = seen.filterMap f ++ (f a).toList := by
  rw [List.filterMap_append, List.filterMap_cons]
  cases f a <;> rfl

/-! ## Labels -/

/-- What one form of a label declares. -/
inductive LabelPart
  | text (value : String)
  | choice (choice : Choice)
  | after (after : After)

namespace LabelPart

/-- The text that a part declares. -/
def text? : LabelPart → Option String
  | .text value => some value
  | _ => none

/-- The choice that a part declares. -/
def choice? : LabelPart → Option Choice
  | .choice declared => some declared
  | _ => none

/-- The after block that a part declares. -/
def after? : LabelPart → Option After
  | .after declared => some declared
  | _ => none

end LabelPart

/-- A form of a label, with what it declares. -/
inductive IsLabelPart : Expr → LabelPart → Prop
  | text (value : String) : IsLabelPart (.list [.symbol "text", .text value]) (.text value)
  | choice {form : Expr} {choice : Choice} (h : IsChoice form choice) :
    IsLabelPart form (.choice choice)
  | after {form : Expr} {after : After} (h : IsAfter form after) : IsLabelPart form (.after after)

/-- The choices of a label that declares the listed ones: none at all if it declares none. -/
def declaredChoices : List Choice → Option (List Choice)
  | [] => none
  | choices => some choices

/-- A form that declares a label: its name, exactly one text, any number of choices and at most one
after block, in any order. -/
inductive IsLabel : Expr → Label → Prop
  | label {name text : String} {after : Option After} {forms : List Expr} {parts : List LabelPart}
    (hparts : List.Forall₂ IsLabelPart forms parts)
    (htext : parts.filterMap LabelPart.text? = [text])
    (hafter : parts.filterMap LabelPart.after? = after.toList) :
    IsLabel (.list (.symbol "label" :: .symbol name :: forms))
      ⟨name, text, declaredChoices (parts.filterMap LabelPart.choice?), after⟩

namespace LabelDraft

/-- What one part does to a draft. -/
inductive Takes (draft : LabelDraft) : LabelPart → LabelDraft → Prop
  | text (hnew : draft.text = none) (value : String) :
    Takes draft (.text value) { draft with text := some value }
  | choice (choice : Choice) :
    Takes draft (.choice choice) { draft with choices := some (draft.choices.getD [] ++ [choice]) }
  | after (hnew : draft.after = none) (after : After) :
    Takes draft (.after after) { draft with after := some after }

theorem compileText_eq_ok {label value : String} {items : List Expr} :
    compileText label items = .ok value ↔ items = [.text value] := by
  constructor
  · intro h
    unfold compileText at h
    split at h
    · cases h
      rfl
    · cases h
  · rintro rfl
    rfl

/-- A draft takes a form when the form is one of the grammar and the draft takes its part. -/
theorem add_eq_ok {name : String} {draft draft' : LabelDraft} {form : Expr} :
    draft.add name form = .ok draft' ↔ ∃ part, IsLabelPart form part ∧ draft.Takes part draft' := by
  constructor
  · intro h
    unfold add at h
    split at h
    · next items =>
      split at h
      · next hhead =>
        obtain ⟨rest, hitems⟩ := head?_eq_some.mp hhead
        cases hitems
        split at h
        · cases h
        · next hnew =>
          obtain ⟨value, hvalue, h⟩ := bind_eq_ok.mp h
          cases h
          obtain rfl := compileText_eq_ok.mp hvalue
          exact ⟨_, .text value, .text (by simpa using hnew) value⟩
      · next hhead =>
        obtain ⟨rest, hitems⟩ := head?_eq_some.mp hhead
        cases hitems
        obtain ⟨choice, hchoice, h⟩ := bind_eq_ok.mp h
        cases h
        exact ⟨_, .choice (compileChoice_eq_ok.mp hchoice), .choice choice⟩
      · next hhead =>
        obtain ⟨rest, hitems⟩ := head?_eq_some.mp hhead
        cases hitems
        split at h
        · cases h
        · next hnew =>
          obtain ⟨after, hafter, h⟩ := bind_eq_ok.mp h
          cases h
          exact ⟨_, .after (compileAfter_eq_ok.mp hafter), .after (by simpa using hnew) after⟩
      · cases h
    · cases h
  · rintro ⟨part, hform, htakes⟩
    cases hform with
    | text value =>
      cases htakes with
      | text hnew =>
        have hold : ¬ draft.text.isSome = true := by simp [hnew]
        exact if_neg hold
    | choice hchoice =>
      obtain ⟨items, rfl⟩ := hchoice.exists_items
      cases htakes with
      | choice => exact bind_eq_ok.mpr ⟨_, compileChoice_eq_ok.mpr hchoice, rfl⟩
    | after hafter =>
      obtain ⟨items, rfl⟩ := hafter.exists_items
      cases htakes with
      | after hnew =>
        have hold : ¬ draft.after.isSome = true := by simp [hnew]
        refine (if_neg hold).trans ?_
        exact bind_eq_ok.mpr ⟨_, compileAfter_eq_ok.mpr hafter, rfl⟩

/-- A draft holds the parts of a label when it has just what they declare. -/
structure Holds (draft : LabelDraft) (parts : List LabelPart) : Prop where
  text : draft.text.toList = parts.filterMap LabelPart.text?
  choices : draft.choices = declaredChoices (parts.filterMap LabelPart.choice?)
  after : draft.after.toList = parts.filterMap LabelPart.after?

theorem holds_nil : Holds ⟨none, none, none⟩ [] := ⟨rfl, rfl, rfl⟩

theorem Holds.unique {draft draft' : LabelDraft} {parts : List LabelPart}
    (h : draft.Holds parts) (h' : draft'.Holds parts) : draft = draft' := by
  obtain ⟨text, choices, after⟩ := draft
  obtain ⟨text', choices', after'⟩ := draft'
  obtain rfl : text = text' := option_eq_of_toList_eq (h.text.trans h'.text.symm)
  obtain rfl : choices = choices' := h.choices.trans h'.choices.symm
  obtain rfl : after = after' := option_eq_of_toList_eq (h.after.trans h'.after.symm)
  rfl

/-- Some draft holds the first of the parts that a draft holds. -/
theorem Holds.before {draft : LabelDraft} {seen more : List LabelPart}
    (h : draft.Holds (seen ++ more)) : ∃ draft' : LabelDraft, draft'.Holds seen := by
  obtain ⟨htext, -, hafter⟩ := h
  rw [List.filterMap_append] at htext hafter
  obtain ⟨text, htext⟩ := exists_toList_eq htext
  obtain ⟨after, hafter⟩ := exists_toList_eq hafter
  exact ⟨⟨text, declaredChoices (seen.filterMap LabelPart.choice?), after⟩, htext, rfl, hafter⟩

theorem declaredChoices_concat (choices : List Choice) (choice : Choice) :
    declaredChoices (choices ++ [choice])
      = some ((declaredChoices choices).getD [] ++ [choice]) := by
  cases choices <;> rfl

theorem holds_concat {draft : LabelDraft} {seen : List LabelPart} {part : LabelPart} :
    draft.Holds (seen ++ [part]) ↔
      draft.text.toList = seen.filterMap LabelPart.text? ++ part.text?.toList ∧
      draft.choices
        = declaredChoices (seen.filterMap LabelPart.choice? ++ part.choice?.toList) ∧
      draft.after.toList = seen.filterMap LabelPart.after? ++ part.after?.toList := by
  simp only [← filterMap_concat]
  exact ⟨fun ⟨text, choices, after⟩ => ⟨text, choices, after⟩,
    fun ⟨text, choices, after⟩ => ⟨text, choices, after⟩⟩

/-- What a part does to a draft is to have it held after the others. -/
theorem Holds.takes_iff {draft draft' : LabelDraft} {seen : List LabelPart} {part : LabelPart}
    (h : draft.Holds seen) : draft.Takes part draft' ↔ draft'.Holds (seen ++ [part]) := by
  rw [holds_concat, ← h.text, ← h.after]
  constructor
  · intro htakes
    cases htakes with
    | text hnew value =>
      refine ⟨?_, ?_, (List.append_nil _).symm⟩
      · rw [hnew]
        rfl
      · show draft.choices = declaredChoices (_ ++ [])
        rw [List.append_nil, h.choices]
    | choice choice =>
      refine ⟨(List.append_nil _).symm, ?_, (List.append_nil _).symm⟩
      show some (draft.choices.getD [] ++ [choice]) = declaredChoices (_ ++ [choice])
      rw [declaredChoices_concat, h.choices]
    | after hnew after =>
      refine ⟨(List.append_nil _).symm, ?_, ?_⟩
      · show draft.choices = declaredChoices (_ ++ [])
        rw [List.append_nil, h.choices]
      · rw [hnew]
        rfl
  · rintro ⟨htext, hchoices, hafter⟩
    obtain ⟨text, choices, after⟩ := draft'
    cases part with
    | text value =>
      obtain ⟨hnone, rfl⟩ := toList_eq_concat.mp htext
      obtain rfl : choices = draft.choices := by simpa [LabelPart.choice?, h.choices] using hchoices
      obtain rfl := option_eq_of_toList_eq (hafter.trans (List.append_nil _))
      exact .text (Option.toList_eq_nil_iff.mp hnone) value
    | choice choice =>
      obtain rfl := option_eq_of_toList_eq (htext.trans (List.append_nil _))
      obtain rfl := option_eq_of_toList_eq (hafter.trans (List.append_nil _))
      obtain rfl : choices = some (draft.choices.getD [] ++ [choice]) := by
        rw [h.choices, ← declaredChoices_concat]
        exact hchoices
      exact .choice choice
    | after value =>
      obtain rfl := option_eq_of_toList_eq (htext.trans (List.append_nil _))
      obtain rfl : choices = draft.choices := by simpa [LabelPart.choice?, h.choices] using hchoices
      obtain ⟨hnone, rfl⟩ := toList_eq_concat.mp hafter
      exact .after (Option.toList_eq_nil_iff.mp hnone) value

theorem holdsParts (name : String) : HoldsParts (add name) IsLabelPart Holds where
  step hseen := by
    rw [add_eq_ok]
    exact exists_congr fun part => and_congr_right fun _ => hseen.takes_iff
  unique := Holds.unique
  before := Holds.before

end LabelDraft

/-- The compiler accepts the label forms of the grammar and gives the labels they declare. -/
theorem compileLabel_eq_ok {items : List Expr} {label : Label} :
    compileLabel items = .ok label ↔ IsLabel (.list (.symbol "label" :: items)) label := by
  constructor
  · intro h
    unfold compileLabel at h
    split at h
    · cases h
    · next name forms =>
      obtain ⟨draft, hdraft, h⟩ := bind_eq_ok.mp h
      obtain ⟨parts, hparts, hheld⟩ :=
        ((LabelDraft.holdsParts name).foldlM_eq_ok LabelDraft.holds_nil).mp hdraft
      split at h
      · next text htext =>
        cases h
        rw [hheld.choices]
        refine .label hparts ?_ hheld.after.symm
        rw [← hheld.text, htext]
        rfl
      · cases h
    · cases h
  · intro h
    cases h with
    | @label name text after forms parts hparts htext hafter =>
      have hheld : LabelDraft.Holds
          ⟨some text, declaredChoices (parts.filterMap LabelPart.choice?), after⟩ parts :=
        ⟨htext.symm, rfl, hafter.symm⟩
      have hrun := ((LabelDraft.holdsParts name).foldlM_eq_ok LabelDraft.holds_nil).mpr
        ⟨parts, hparts, hheld⟩
      exact bind_eq_ok.mpr ⟨_, hrun, rfl⟩

end Colloquy
