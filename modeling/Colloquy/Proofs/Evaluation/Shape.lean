import Colloquy.Proofs.Dialogue.Denotation
import Colloquy.Proofs.Playthrough.Frame

/-!
# The shape of code that runs

The evaluator refuses two misshapen assignments itself, and would evaluate a list headed by a word of
the grammar like any other. The checks made when a dialogue is compiled are there so that none of
this is ever come by. Main statement: `compiled_code_keeps_shape`. On any host and with any bindings,
the conditions and blocks of a compiled dialogue are run without an assignment that is given up for
its shape and without a list that is headed by a word of the grammar.

What is come by is seen by an evaluator that does the same and notes the lists that it enters and the
assignments that it gives up (`Watched`). What it notes while it runs an expression is told by the
parts of the expression (`Expr.events`, `Watched.evaluate_inStep`), and the parts of checked code
tell of nothing misshapen (`IsCode.inShape`).
-/

namespace Colloquy

open Colloquy.Action (InStep)

variable {κ σ α β : Type}

/-! ## Evaluation, watched -/

/-- Something that the evaluator comes by. -/
inductive EvaluationEvent
  /-- A list is about to be evaluated. -/
  | entered (items : List Expr)
  /-- An assignment is given up because it is not of two items. -/
  | miscounted (items : List Expr)
  /-- An assignment is given up because its target is no symbol. -/
  | untargeted (target : Expr)

/-- A step of a turn that also notes what is come by. -/
abbrev Watched (κ σ : Type) := Action (TurnState κ σ × List EvaluationEvent)

namespace Watched

/-- A step with nothing to note. -/
def plain (turn : Turn κ σ α) : Watched κ σ α := turn.within (·.1) fun s state => (state, s.2)

/-- Notes an event. -/
def note (event : EvaluationEvent) : Watched κ σ Unit := modify fun s => (s.1, s.2 ++ [event])

mutual

/-- `Turn.evaluate`, watched. -/
def evaluate (h : Host κ σ) : Expr → Watched κ σ (Value κ)
  | .number value => pure (.number value)
  | .text value => pure (.text value)
  | .symbol name => plain (Turn.lookup name)
  | .list items => do
    note (.entered items)
    evaluateList h items

/-- `Turn.evaluateList`, watched. -/
def evaluateList (h : Host κ σ) : List Expr → Watched κ σ (Value κ)
  | [] => plain (Turn.fail .emptyList)
  | head :: args =>
    if head.symbol? = some "set*" then evaluateAssignment h args
    else do
      let value ← evaluate h head
      let f ← plain (Turn.callee head value)
      plain (Action.ofExcept (h.checkCount f args.length))
      let values ← evaluateAll h args
      plain (Turn.onHost (h.apply f values))

/-- `Turn.evaluateAssignment`, watched. -/
def evaluateAssignment (h : Host κ σ) : List Expr → Watched κ σ (Value κ)
  | [target, e] =>
    match target.symbol? with
    | some name => do
      let value ← evaluate h e
      plain (Turn.assign name value)
      pure value
    | none => do
      note (.untargeted target)
      plain (Turn.fail (.typeMismatch "set*" "a symbol to assign" target.kindName))
  | items => do
    note (.miscounted items)
    plain (Turn.fail (.assignmentCount items.length))

/-- `Turn.evaluateAll`, watched. -/
def evaluateAll (h : Host κ σ) : List Expr → Watched κ σ (List (Value κ))
  | [] => pure []
  | e :: rest => do
    let value ← evaluate h e
    let values ← evaluateAll h rest
    pure (value :: values)

end

/-- `Turn.evaluateCondition`, watched. -/
def evaluateCondition (h : Host κ σ) (condition : Expr) : Watched κ σ Bool := do
  match (← evaluate h condition).expectNumber "Condition" with
  | .ok x => pure (x > 0)
  | .error cause => plain (Turn.fail cause)

/-- `Turn.executeBlock`, watched. -/
def executeBlock (h : Host κ σ) : List Expr → Watched κ σ Unit
  | [] => pure ()
  | e :: rest => do
    let _ ← evaluate h e
    executeBlock h rest

end Watched

/-! ## What the parts of an expression tell -/

/-- The events of an assignment with the given items after its head, whatever its value is. -/
def assignmentEvents : List Expr → List EvaluationEvent
  | [target, _] => if target.symbol?.isSome then [] else [.untargeted target]
  | items => [.miscounted items]

/-- The events of the evaluation of an expression, but for those of the items of a list. -/
def Expr.events : Expr → List EvaluationEvent
  | .list [] => [.entered []]
  | .list (head :: args) => .entered (head :: args) ::
      (if head.symbol? = some "set*" then assignmentEvents args else [])
  | _ => []

namespace Watched

/-- The watched turn is where the other one is, and has noted only events in `P`. -/
def Seen (P : EvaluationEvent → Prop) (s : TurnState κ σ × List EvaluationEvent)
    (state : TurnState κ σ) : Prop :=
  s.1 = state ∧ ∀ event ∈ s.2, P event

/-- Every event of every part of the expression is in `P`. -/
def Tells (P : EvaluationEvent → Prop) (e : Expr) : Prop :=
  ∀ part, Expr.Within part e → ∀ event ∈ part.events, P event

variable {P : EvaluationEvent → Prop}

theorem Tells.item {items : List Expr} (htells : Tells P (.list items)) {item : Expr}
    (hitem : item ∈ items) : Tells P item :=
  fun part hpart => htells part (.inside hitem hpart)

theorem inStep_plain (turn : Turn κ σ α) : InStep (Seen P) (· = ·) (plain turn) turn := by
  rintro ⟨state, events⟩ _ ⟨rfl, hevents⟩
  exact ⟨Agree.refl (fun _ => rfl) _, rfl, hevents⟩

/-- Notes an event before a turn that is watched goes on. -/
theorem inStep_note {event : EvaluationEvent} (hevent : P event) {watched : Watched κ σ α}
    {turn : Turn κ σ α} (hrest : InStep (Seen P) (· = ·) watched turn) :
    InStep (Seen P) (· = ·) (note event >>= fun _ => watched) turn := by
  rintro ⟨state, events⟩ _ ⟨rfl, hevents⟩
  unfold note
  rw [Action.result_bind_of_ok (Action.result_modify _ _)]
  refine hrest _ _ ⟨rfl, ?_⟩
  intro other hother
  rcases List.mem_append.mp hother with hother | hother
  · exact hevents other hother
  · rw [List.mem_singleton.mp hother]
    exact hevent

theorem inStep_bind {watched : Watched κ σ α} {turn : Turn κ σ α} {rest : α → Watched κ σ β}
    {rest' : α → Turn κ σ β} (hfirst : InStep (Seen P) (· = ·) watched turn)
    (hrest : ∀ value, InStep (Seen P) (· = ·) (rest value) (rest' value)) :
    InStep (Seen P) (· = ·) (watched >>= rest) (turn >>= rest') := by
  refine hfirst.bind fun value _ hvalue => ?_
  rw [← hvalue]
  exact hrest value

mutual

/-- Watched or not, an expression does the same, and what is noted is told by its parts. -/
theorem evaluate_inStep (h : Host κ σ) : ∀ e : Expr, Tells P e →
    InStep (Seen P) (· = ·) (evaluate h e) (Turn.evaluate h e)
  | .number x, _ => by
    rw [evaluate, Turn.evaluate]
    exact .pure rfl
  | .text s, _ => by
    rw [evaluate, Turn.evaluate]
    exact .pure rfl
  | .symbol name, _ => by
    rw [evaluate, Turn.evaluate]
    exact inStep_plain _
  | .list items, htells => by
    have hentered : P (.entered items) := by
      refine htells _ (.here _) _ ?_
      cases items <;> exact List.mem_cons_self ..
    rw [evaluate, Turn.evaluate]
    exact inStep_note hentered (evaluateList_inStep h items htells)

theorem evaluateList_inStep (h : Host κ σ) : ∀ items : List Expr, Tells P (.list items) →
    InStep (Seen P) (· = ·) (evaluateList h items) (Turn.evaluateList h items)
  | [], _ => by
    rw [evaluateList, Turn.evaluateList]
    exact inStep_plain _
  | head :: args, htells => by
    have hargs : ∀ arg ∈ args, Tells P arg := fun arg harg =>
      htells.item (List.mem_cons_of_mem _ harg)
    rw [evaluateList, Turn.evaluateList]
    split
    · next hset =>
      -- the events of the assignment follow the one of the list that it is
      refine evaluateAssignment_inStep h args (fun event hevent => ?_) hargs
      refine htells _ (.here _) event (List.mem_cons_of_mem _ ?_)
      rw [if_pos hset]
      exact hevent
    · -- a call notes what its head and its arguments note, and nothing at its other steps
      refine inStep_bind (evaluate_inStep h head (htells.item (List.mem_cons_self ..))) fun v => ?_
      refine inStep_bind (inStep_plain _) fun f => ?_
      refine inStep_bind (inStep_plain _) fun _ => ?_
      exact inStep_bind (evaluateAll_inStep h args hargs) fun values => inStep_plain _

theorem evaluateAssignment_inStep (h : Host κ σ) : ∀ items : List Expr,
    (∀ event ∈ assignmentEvents items, P event) → (∀ item ∈ items, Tells P item) →
    InStep (Seen P) (· = ·) (evaluateAssignment h items) (Turn.evaluateAssignment h items)
  | [], hevents, _ => by
    have hcount : P (.miscounted []) := hevents _ (List.mem_singleton_self _)
    rw [evaluateAssignment, Turn.evaluateAssignment]
    · exact inStep_note hcount (inStep_plain _)
    · simp
    · simp
  | [item], hevents, _ => inStep_note (hevents _ (List.mem_singleton_self _)) (inStep_plain _)
  | [target, e], hevents, hitems => by
    rw [evaluateAssignment, Turn.evaluateAssignment]
    rw [assignmentEvents] at hevents
    cases hsymbol : target.symbol? with
    | some name =>
      refine inStep_bind (evaluate_inStep h e (hitems e (by simp))) fun value => ?_
      exact inStep_bind (inStep_plain _) fun _ => .pure rfl
    | none =>
      rw [hsymbol] at hevents
      exact inStep_note (hevents _ (List.mem_singleton_self _)) (inStep_plain _)
  | _ :: _ :: _ :: _, hevents, _ =>
    -- three items and more are given up as none and one are
    inStep_note (hevents _ (List.mem_singleton_self _)) (inStep_plain _)

theorem evaluateAll_inStep (h : Host κ σ) : ∀ items : List Expr, (∀ item ∈ items, Tells P item) →
    InStep (Seen P) (· = ·) (evaluateAll h items) (Turn.evaluateAll h items)
  | [], _ => by
    rw [evaluateAll, Turn.evaluateAll]
    exact .pure rfl
  | e :: rest, hitems => by
    obtain ⟨he, hrest⟩ := List.forall_mem_cons.mp hitems
    rw [evaluateAll, Turn.evaluateAll]
    refine inStep_bind (evaluate_inStep h e he) fun value => ?_
    exact inStep_bind (evaluateAll_inStep h rest hrest) fun values => .pure rfl

end

/-- A list that is headed by a word of the grammar is evaluated like any other, and noted. -/
example : ((evaluate Host.bare (.list [.symbol "label", .symbol "x"])).result
      (⟨Bindings.builtins, ()⟩, [])).2.2 = [.entered [.symbol "label", .symbol "x"]] := rfl

theorem evaluateCondition_inStep (h : Host κ σ) {condition : Expr} (htells : Tells P condition) :
    InStep (Seen P) (· = ·) (evaluateCondition h condition)
      (Turn.evaluateCondition h condition) := by
  refine inStep_bind (evaluate_inStep h condition htells) fun v => ?_
  cases v.expectNumber "Condition" with
  | ok x => exact .pure rfl
  | error cause => exact inStep_plain _

theorem executeBlock_inStep (h : Host κ σ) : ∀ code : List Expr, (∀ e ∈ code, Tells P e) →
    InStep (Seen P) (· = ·) (executeBlock h code) (Turn.executeBlock h code)
  | [], _ => .pure rfl
  | e :: rest, hcode => by
    obtain ⟨he, hrest⟩ := List.forall_mem_cons.mp hcode
    exact inStep_bind (evaluate_inStep h e he) fun _ => executeBlock_inStep h rest hrest

end Watched

/-! ## Code that was checked -/

/-- A list that is entered is headed by no word of the grammar, and no assignment is given up. -/
def EvaluationEvent.InShape : EvaluationEvent → Prop
  | entered items => ∀ head, (Expr.list items).head? = some head → head ∉ grammarWords
  | miscounted _ | untargeted _ => False

theorem IsCodeHead.inShape {form : Expr} (h : IsCodeHead form) :
    ∀ event ∈ form.events, event.InShape := by
  intro event hevent
  cases form with
  | number | text | symbol => cases hevent
  | list items =>
    cases items with
    | nil =>
      rw [List.mem_singleton.mp hevent]
      exact fun head hhead => (h head hhead).1
    | cons first args =>
      rcases List.mem_cons.mp hevent with rfl | hevent
      · exact fun head hhead => (h head hhead).1
      · by_cases hset : first.symbol? = some "set*"
        · -- an assignment has the shape that leaves it no events
          obtain ⟨name, value, hform⟩ := (h _ hset).2 rfl
          cases hform
          simp [assignmentEvents, Expr.symbol?] at hevent
        · rw [if_neg hset] at hevent
          cases hevent

/-- What is told by the parts of code is in shape. -/
theorem IsCode.inShape {e : Expr} (h : IsCode e) : Watched.Tells EvaluationEvent.InShape e :=
  fun part hpart => (h part hpart).inShape

theorem IsChoice.isCode {form condition : Expr} {choice : Choice} (h : IsChoice form choice)
    (hcondition : choice.condition = some condition) : IsCode condition := by
  cases h with
  | choice text body code => exact code condition hcondition

theorem IsAfter.isCode {form : Expr} {after : After} (h : IsAfter form after) :
    ∀ e ∈ after.code, IsCode e := by
  cases h with
  | plain | jump => simp
  | body hcode | bodyJump hcode | jumpBody hcode => exact hcode

theorem mem_of_declaredChoices {choices : List Choice} {choice : Choice}
    (h : choice ∈ (declaredChoices choices).getD []) : choice ∈ choices := by
  cases choices with
  | nil => cases h
  | cons => exact h

/-- A choice that the parts of a label declare has its form among theirs. -/
theorem exists_isChoice {forms : List Expr} {parts : List LabelPart} {choice : Choice}
    (hparts : List.Forall₂ IsLabelPart forms parts)
    (hchoice : choice ∈ parts.filterMap LabelPart.choice?) : ∃ form, IsChoice form choice := by
  obtain ⟨part, hpart, hdeclares⟩ := List.mem_filterMap.mp hchoice
  obtain ⟨form, -, hform⟩ := exists_of_forall₂ hparts hpart
  cases hform with
  | text | after => cases hdeclares
  | choice h =>
    cases hdeclares
    exact ⟨form, h⟩

/-- An after block that the parts of a label declare has its form among theirs. -/
theorem exists_isAfter {forms : List Expr} {parts : List LabelPart} {after : After}
    (hparts : List.Forall₂ IsLabelPart forms parts)
    (hafter : after ∈ parts.filterMap LabelPart.after?) : ∃ form, IsAfter form after := by
  obtain ⟨part, hpart, hdeclares⟩ := List.mem_filterMap.mp hafter
  obtain ⟨form, -, hform⟩ := exists_of_forall₂ hparts hpart
  cases hform with
  | text | choice => cases hdeclares
  | after h =>
    cases hdeclares
    exact ⟨form, h⟩

/-- All code of a label of the grammar is code. -/
theorem IsLabel.isCode {form : Expr} {label : Label} (h : IsLabel form label) :
    ∀ e ∈ label.code, IsCode e := by
  cases h with
  | @label name text after forms parts hparts htext hafter =>
    intro e he
    rcases List.mem_append.mp he with he | he
    · obtain ⟨choice, hchoice, hcondition⟩ := List.mem_filterMap.mp he
      obtain ⟨form, hform⟩ := exists_isChoice hparts (mem_of_declaredChoices hchoice)
      exact hform.isCode hcondition
    · cases after with
      | none => cases he
      | some after =>
        obtain ⟨form, hform⟩ := exists_isAfter hparts (by rw [hafter]; exact List.mem_singleton_self _)
        exact hform.isCode e he

/-- All code of a compiled dialogue is code. -/
theorem isCode_of_compiled {forms : List Expr} {d : Dialogue} (hcompiled : compileForms forms = .ok d)
    {name : String} {label : Label} (hlabel : d.label? name = some label) :
    ∀ e ∈ label.code, IsCode e := by
  obtain ⟨parts, hprogram, hfinds⟩ := compileForms_eq_ok.mp hcompiled
  obtain ⟨part, hpart, hdeclares⟩ := List.mem_filterMap.mp ((hfinds _ _).mp hlabel).1
  obtain ⟨form, -, hform⟩ := exists_of_forall₂ hprogram.forms hpart
  cases hform with
  | start => cases hdeclares
  | label h =>
    cases hdeclares
    exact h.isCode

/-! ## Runs of compiled code -/

namespace Watched

/-- Watched from a state on, the turn gives the same answer and leaves the same state, and whatever
it comes by is in shape. -/
def KeepsShape (watched : Watched κ σ α) (turn : Turn κ σ α) (state : TurnState κ σ) : Prop :=
  ∃ events, watched.result (state, [])
      = ((turn.result state).1, ((turn.result state).2, events)) ∧
    ∀ event ∈ events, event.InShape

theorem keepsShape_of_inStep {watched : Watched κ σ α} {turn : Turn κ σ α}
    (hstep : InStep (Seen EvaluationEvent.InShape) (· = ·) watched turn)
    (state : TurnState κ σ) : KeepsShape watched turn state := by
  obtain ⟨hanswer, hstate, hevents⟩ := hstep (state, []) state ⟨rfl, by simp⟩
  exact ⟨_, Prod.ext hanswer.eq (Prod.ext hstate rfl), hevents⟩

end Watched

/-- **Checked code never loses its shape.** Every condition and every block of a compiled dialogue,
run on any host from any bindings, is run without an assignment that is given up for its shape and
without a list that is headed by a word of the grammar. -/
theorem compiled_code_keeps_shape {strict : Bool} {forms : List Expr} {program : Program}
    (hbuilt : Program.ofForms strict forms = .ok program) {name : String} {label : Label}
    (hlabel : program.dialogue.label? name = some label) (h : Host κ σ) (state : TurnState κ σ) :
    (∀ choices, label.choices = some choices → ∀ choice ∈ choices,
      ∀ condition, choice.condition = some condition →
        Watched.KeepsShape (Watched.evaluateCondition h condition)
          (Turn.evaluateCondition h condition) state) ∧
    ∀ after, label.after = some after →
      Watched.KeepsShape (Watched.executeBlock h after.code) (Turn.executeBlock h after.code)
        state := by
  have hcode := isCode_of_compiled (Program.compileForms_of_ofForms hbuilt) hlabel
  refine ⟨fun choices hchoices choice hchoice condition hcondition => ?_, fun after hafter => ?_⟩
  · have hmem : condition ∈ label.code := by
      unfold Label.code
      rw [hchoices]
      exact List.mem_append_left _ (List.mem_filterMap.mpr ⟨choice, hchoice, hcondition⟩)
    refine Watched.keepsShape_of_inStep ?_ state
    exact Watched.evaluateCondition_inStep h (hcode condition hmem).inShape
  · have hmem : ∀ e ∈ after.code, e ∈ label.code := by
      unfold Label.code
      rw [hafter]
      exact fun e he => List.mem_append_right _ he
    refine Watched.keepsShape_of_inStep ?_ state
    exact Watched.executeBlock_inStep h after.code fun e he => (hcode e (hmem e he)).inShape

/-- Code that binds a word of the grammar to a function, and calls it by another name. -/
def coinCode : List Expr := [
  .list [.symbol "set*", .symbol "label", .symbol "cmp"],
  .list [.symbol "cmp", .number 2, .list [.symbol "cmp", .number 1, .number 1]]]

/-- A label with that code. -/
def coinForms : List Expr := [
  .list [.symbol "label", .symbol "coin", .list [.symbol "text", .text "A coin."],
    .list [.symbol "after", .list (.symbol "body" :: coinCode), .symbol "jump", .symbol "coin"]],
  .list [.symbol "start-dialogue", .symbol "coin"]]

/-- Built strictly and run where `label` is bound, the code of the coin rebinds it to `cmp`, and does
not lose its shape. -/
theorem coin_keeps_shape :
    ∃ program, Program.ofForms true coinForms = .ok program ∧
      program.dialogue.label? "coin"
        = some ⟨"coin", "A coin.", none, some ⟨coinCode, some "coin"⟩⟩ ∧
      let state : TurnState Empty Unit := ⟨Bindings.builtins.insert "label" (.text "heads"), ()⟩
      ((Turn.executeBlock Host.bare coinCode).result state).2.bindings.find? "label"
        = some (.function (.builtin .reaches)) ∧
      Watched.KeepsShape (Watched.executeBlock Host.bare coinCode)
        (Turn.executeBlock Host.bare coinCode) state := by
  obtain ⟨program, hbuilt, hlabel⟩ : ∃ program, Program.ofForms true coinForms = .ok program ∧
      program.dialogue.label? "coin"
        = some ⟨"coin", "A coin.", none, some ⟨coinCode, some "coin"⟩⟩ := ⟨_, rfl, rfl⟩
  refine ⟨program, hbuilt, hlabel, ?_⟩
  intro state
  refine ⟨by decide, ?_⟩
  exact (compiled_code_keeps_shape hbuilt hlabel Host.bare state).2 ⟨coinCode, some "coin"⟩ rfl

end Colloquy
