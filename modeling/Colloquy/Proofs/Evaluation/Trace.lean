import Colloquy.Proofs.Evaluation.Quiet

/-!
# What flows through evaluation

Values come into code from its literals, from the bindings and from what functions give, and get from
there to where they are used: into other bindings, into calls, and out. `Traced` is the evaluator with
a note of every value that it computes, every name that it binds and every function that it enters.
Main statement, `Host.Confines.evaluate`: if the functions of a host give nothing but values in `P`
when they are entered with as many arguments as they take, all in `P`, and fail with nothing but
faults in `F`, then from bindings in `P` code computes, binds and calls with nothing else, enters every
function with as many arguments as it takes, fails with nothing but faults in `F`, and leaves bindings
in `P`, whether it fails or not. Over several pieces of code, `Host.Confines.evaluateEach`.
-/

namespace Colloquy

variable {κ σ α β : Type}

/-! ## Evaluation, traced -/

/-- Something that happens to a value. -/
inductive ValueEvent (κ : Type)
  /-- It is the value of an expression. -/
  | computed (value : Value κ)
  /-- It is assigned to a name. -/
  | bound (name : String) (value : Value κ)
  /-- A function is entered with the values of its arguments. -/
  | entered (f : Native κ) (args : List (Value κ))
deriving DecidableEq

/-- A step of a turn that also notes what happens to values. -/
abbrev Traced (κ σ : Type) := Action (TurnState κ σ × List (ValueEvent κ))

namespace Traced

/-- A step with nothing to note. -/
def plain (turn : Turn κ σ α) : Traced κ σ α := turn.within (·.1) fun s state => (state, s.2)

/-- Notes an event. -/
def note (event : ValueEvent κ) : Traced κ σ Unit := modify fun s => (s.1, s.2 ++ [event])

/-- Notes the value that a step gives. -/
def computing (step : Traced κ σ (Value κ)) : Traced κ σ (Value κ) := do
  let value ← step
  note (.computed value)
  pure value

mutual

/-- `Turn.evaluate`, traced. -/
def evaluate (h : Host κ σ) : Expr → Traced κ σ (Value κ)
  | .number value => computing (pure (.number value))
  | .text value => computing (pure (.text value))
  | .symbol name => computing (plain (Turn.lookup name))
  | .list items => computing (evaluateList h items)

/-- `Turn.evaluateList`, traced. -/
def evaluateList (h : Host κ σ) : List Expr → Traced κ σ (Value κ)
  | [] => plain (Turn.fail .emptyList)
  | head :: args =>
    if head.symbol? = some "set*" then evaluateAssignment h args
    else do
      let value ← evaluate h head
      let f ← plain (Turn.callee head value)
      plain (Action.ofExcept (h.checkCount f args.length))
      let values ← evaluateAll h args
      -- The number of the arguments is right by now, so the function is entered.
      note (.entered f values)
      plain (Turn.onHost (h.run f values))

/-- `Turn.evaluateAssignment`, traced. -/
def evaluateAssignment (h : Host κ σ) : List Expr → Traced κ σ (Value κ)
  | [target, e] =>
    match target.symbol? with
    | some name => do
      let value ← evaluate h e
      plain (Turn.assign name value)
      note (.bound name value)
      pure value
    | none => plain (Turn.fail (.typeMismatch "set*" "a symbol to assign" target.kindName))
  | items => plain (Turn.fail (.assignmentCount items.length))

/-- `Turn.evaluateAll`, traced. -/
def evaluateAll (h : Host κ σ) : List Expr → Traced κ σ (List (Value κ))
  | [] => pure []
  | e :: rest => do
    let value ← evaluate h e
    let values ← evaluateAll h rest
    pure (value :: values)

end

/-- Evaluates pieces of code one after another, each whether or not the ones before it failed. -/
def evaluateEach (h : Host κ σ) (code : List Expr) (s : TurnState κ σ × List (ValueEvent κ)) :
    TurnState κ σ × List (ValueEvent κ) :=
  code.foldl (fun s e => ((evaluate h e).result s).2) s

end Traced

/-- Evaluates pieces of code one after another, each whether or not the ones before it failed. -/
def Turn.evaluateEach (h : Host κ σ) (code : List Expr) (state : TurnState κ σ) : TurnState κ σ :=
  code.foldl (fun state e => ((Turn.evaluate h e).result state).2) state

/-! ## What is kept to -/

/-- Only values in `P` are bound. -/
def Bindings.Within (P : Value κ → Prop) (bindings : Bindings κ) : Prop :=
  ∀ name value, bindings.find? name = some value → P value

theorem Bindings.Within.insert {P : Value κ → Prop} {bindings : Bindings κ}
    (hbindings : bindings.Within P) {value : Value κ} (hvalue : P value) (name : String) :
    Bindings.Within P (bindings.insert name value) := by
  intro other found hfound
  rw [NameMap.find?_insert] at hfound
  split at hfound
  · rw [← Option.some.inj hfound]
    exact hvalue
  · exact hbindings other found hfound

theorem Bindings.Within.insertAll {P : Value κ → Prop} :
    ∀ {entries : List (String × Value κ)} {bindings : Bindings κ}, bindings.Within P →
      (∀ e ∈ entries, P e.2) → Bindings.Within P (bindings.insertAll entries)
  | [], _, hbindings, _ => hbindings
  | (name, value) :: rest, bindings, hbindings, hentries => by
    obtain ⟨hvalue, hrest⟩ := List.forall_mem_cons.mp hentries
    have hinserted : Bindings.Within P (bindings.insert name value) := hbindings.insert hvalue name
    rw [NameMap.insertAll_cons]
    exact insertAll hinserted hrest

/-- A function is entered with as many arguments as it takes, and all of them are in `P`. -/
structure Host.Accepts (h : Host κ σ) (P : Value κ → Prop) (f : Native κ) (args : List (Value κ)) :
    Prop where
  count : (h.signatureOf f).arity.accepts args.length = true
  args : ∀ value ∈ args, P value

/-- Values that are computed or bound are in `P`, and functions are entered as they accept it. -/
inductive ValueEvent.Within (h : Host κ σ) (P : Value κ → Prop) : ValueEvent κ → Prop
  | computed {value : Value κ} (hvalue : P value) : Within h P (.computed value)
  | bound {name : String} {value : Value κ} (hvalue : P value) : Within h P (.bound name value)
  | entered {f : Native κ} {args : List (Value κ)} (haccepts : h.Accepts P f args) :
      Within h P (.entered f args)

/-- The result is in `P`, the fault in `F`. -/
def Answers (P : α → Prop) (F : Fault → Prop) : Except Fault α → Prop
  | .ok value => P value
  | .error fault => F fault

/-- Functions that are entered as they accept it keep to values in `P` and faults in `F`, as do
literals and the evaluator itself, which tells of a wrong number of arguments by the words of an
arity. -/
structure Host.Confines (h : Host κ σ) (P : Value κ → Prop) (F : Fault → Prop) : Prop where
  number : ∀ x, P (.number x)
  text : ∀ s, P (.text s)
  refusal : ∀ cause, (∀ function takes count, cause = .wrongCount function takes count →
    ∃ arity : Arity, takes = arity.text) → F (.evaluation cause)
  run : ∀ f args, h.Accepts P f args → ∀ s, Answers P F ((h.run f args).result s).1

namespace Traced

/-- Values in `P` are bound, and what is noted is within `P`. -/
structure Within (h : Host κ σ) (P : Value κ → Prop) (s : TurnState κ σ × List (ValueEvent κ)) :
    Prop where
  bindings : s.1.bindings.Within P
  events : ∀ event ∈ s.2, event.Within h P

/-- From a state within `P` the traced step does what the step does, stays within `P`, and gives
something in `Q` or fails with something in `F`. -/
def Follows (h : Host κ σ) (P : Value κ → Prop) (F : Fault → Prop) (traced : Traced κ σ α)
    (turn : Turn κ σ α) (Q : α → Prop) : Prop :=
  ∀ s, Within h P s →
    turn.result s.1 = ((traced.result s).1, (traced.result s).2.1) ∧
      Within h P (traced.result s).2 ∧ Answers Q F (traced.result s).1

section Follows

variable {h : Host κ σ} {P : Value κ → Prop} {F : Fault → Prop}

theorem Follows.pure {Q : α → Prop} {value : α} (hvalue : Q value) :
    Follows h P F (Pure.pure value) (Pure.pure value) Q :=
  fun _ hs => ⟨rfl, hs, hvalue⟩

theorem Follows.bind {Q : α → Prop} {R : β → Prop} {traced : Traced κ σ α} {turn : Turn κ σ α}
    {rest : α → Traced κ σ β} {rest' : α → Turn κ σ β} (hfirst : Follows h P F traced turn Q)
    (hrest : ∀ value, Q value → Follows h P F (rest value) (rest' value) R) :
    Follows h P F (traced >>= rest) (turn >>= rest') R := by
  intro s hs
  obtain ⟨hturn, hwithin, hanswers⟩ := hfirst s hs
  rcases hrun : traced.result s with ⟨fault | value, s'⟩ <;> rw [hrun] at hturn hwithin hanswers
  · rw [Action.result_bind_of_error hrun, Action.result_bind_of_error hturn]
    exact ⟨rfl, hwithin, hanswers⟩
  · rw [Action.result_bind_of_ok hrun, Action.result_bind_of_ok hturn]
    exact hrest value hanswers s' hwithin

/-- A step that keeps the bindings within `P` is followed without a note. -/
theorem follows_plain {turn : Turn κ σ α} {Q : α → Prop}
    (hturn : ∀ state, state.bindings.Within P →
      (turn.result state).2.bindings.Within P ∧ Answers Q F (turn.result state).1) :
    Follows h P F (plain turn) turn Q := by
  intro s hs
  obtain ⟨hbindings, hanswers⟩ := hturn s.1 hs.bindings
  exact ⟨rfl, ⟨hbindings, hs.events⟩, hanswers⟩

/-- Notes an event before a step that follows. -/
theorem follows_note {Q : α → Prop} {event : ValueEvent κ} (hevent : event.Within h P)
    {traced : Traced κ σ α} {turn : Turn κ σ α} (hrest : Follows h P F traced turn Q) :
    Follows h P F (note event >>= fun _ => traced) turn Q := by
  intro s hs
  unfold note
  rw [Action.result_bind_of_ok (Action.result_modify _ _)]
  refine hrest (s.1, s.2 ++ [event]) ⟨hs.bindings, fun other hother => ?_⟩
  rcases List.mem_append.mp hother with hother | hother
  · exact hs.events other hother
  · rw [List.mem_singleton.mp hother]
    exact hevent

theorem follows_computing {traced : Traced κ σ (Value κ)} {turn : Turn κ σ (Value κ)}
    (hstep : Follows h P F traced turn P) : Follows h P F (computing traced) turn P := by
  have hnote : ∀ value, P value → Follows h P F
      (note (.computed value) >>= fun _ => Pure.pure value) (Pure.pure value) P :=
    fun value hvalue => follows_note (.computed hvalue) (.pure hvalue)
  have hbind := hstep.bind hnote
  rwa [bind_pure] at hbind

end Follows

end Traced

/-! ## Code keeps to it -/

namespace Host.Confines

open Traced (Follows follows_plain follows_note follows_computing)

variable {h : Host κ σ} {P : Value κ → Prop} {F : Fault → Prop}

theorem fail (C : h.Confines P F) {cause : EvaluationFault} {Q : α → Prop}
    (hcause : ∀ function takes count, cause = .wrongCount function takes count →
      ∃ arity : Arity, takes = arity.text) :
    Follows h P F (Traced.plain (Turn.fail cause)) (Turn.fail cause) Q :=
  follows_plain fun _ hbindings => ⟨hbindings, C.refusal cause hcause⟩

theorem lookup (C : h.Confines P F) (name : String) :
    Follows h P F (Traced.plain (Turn.lookup name)) (Turn.lookup name) P := by
  refine follows_plain fun state hbindings => ?_
  unfold Turn.lookup
  rw [Action.result_bind_of_ok (Action.result_get state)]
  cases hfind : state.bindings.find? name with
  | none => exact ⟨hbindings, C.refusal _ nofun⟩
  | some value => exact ⟨hbindings, hbindings name value hfind⟩

theorem assign (C : h.Confines P F) (name : String) {value : Value κ} (hvalue : P value) :
    Follows h P F (Traced.plain (Turn.assign name value)) (Turn.assign name value)
      fun _ => True := by
  refine follows_plain fun state hbindings => ?_
  unfold Turn.assign
  rw [Action.result_bind_of_ok (Action.result_get state)]
  split
  · exact ⟨hbindings.insert hvalue name, trivial⟩
  · exact ⟨hbindings, C.refusal _ nofun⟩

theorem callee (C : h.Confines P F) (head : Expr) (value : Value κ) :
    Follows h P F (Traced.plain (Turn.callee head value)) (Turn.callee head value)
      fun _ => True := by
  cases value with
  | function f => exact follows_plain fun state hbindings => ⟨hbindings, trivial⟩
  | _ => exact C.fail nofun

theorem checkCount (C : h.Confines P F) (f : Native κ) (count : Nat) :
    Follows h P F (Traced.plain (Action.ofExcept (h.checkCount f count)))
      (Action.ofExcept (h.checkCount f count))
      fun _ => (h.signatureOf f).arity.accepts count = true := by
  refine follows_plain fun state hbindings => ?_
  rw [Action.result_ofExcept]
  refine ⟨hbindings, ?_⟩
  unfold Host.checkCount
  dsimp only
  split
  · next haccepts => exact haccepts
  · refine C.refusal _ fun function takes count hcause => ?_
    cases hcause
    exact ⟨_, rfl⟩

/-- A function that is called with arguments that it accepts is entered with them. -/
theorem enter (C : h.Confines P F) {f : Native κ} {args : List (Value κ)}
    (haccepts : h.Accepts P f args) :
    Follows h P F (Traced.note (.entered f args) >>= fun _ => Traced.plain (Turn.onHost (h.run f args)))
      (Turn.onHost (h.apply f args)) P := by
  rw [Host.apply_of_accepts haccepts.count]
  exact follows_note (.entered haccepts) <| follows_plain fun state hbindings =>
    ⟨hbindings, C.run f args haccepts state.host⟩

mutual

/-- Code follows its trace and keeps to values in `P` and faults in `F`. -/
theorem evaluate (C : h.Confines P F) : ∀ e : Expr,
    Follows h P F (Traced.evaluate h e) (Turn.evaluate h e) P
  | .number x => by
    rw [Traced.evaluate, Turn.evaluate]
    exact follows_computing (.pure (C.number x))
  | .text s => by
    rw [Traced.evaluate, Turn.evaluate]
    exact follows_computing (.pure (C.text s))
  | .symbol name => by
    rw [Traced.evaluate, Turn.evaluate]
    exact follows_computing (C.lookup name)
  | .list items => by
    rw [Traced.evaluate, Turn.evaluate]
    exact follows_computing (evaluateList C items)

theorem evaluateList (C : h.Confines P F) : ∀ items : List Expr,
    Follows h P F (Traced.evaluateList h items) (Turn.evaluateList h items) P
  | [] => by
    rw [Traced.evaluateList, Turn.evaluateList]
    exact C.fail nofun
  | head :: args => by
    rw [Traced.evaluateList, Turn.evaluateList]
    split
    · exact evaluateAssignment C args
    · refine (evaluate C head).bind fun value _ => ?_
      refine (C.callee head value).bind fun f _ => ?_
      refine (C.checkCount f args.length).bind fun _ haccepts => ?_
      refine (evaluateAll C args).bind fun values hvalues => ?_
      -- as many values as arguments were counted
      exact C.enter ⟨by rw [hvalues.1]; exact haccepts, hvalues.2⟩

theorem evaluateAssignment (C : h.Confines P F) : ∀ items : List Expr,
    Follows h P F (Traced.evaluateAssignment h items) (Turn.evaluateAssignment h items) P
  | [] => C.fail nofun
  | [_] => C.fail nofun
  | [target, e] => by
    rw [Traced.evaluateAssignment, Turn.evaluateAssignment]
    cases target.symbol? with
    | some name =>
      refine (evaluate C e).bind fun value hvalue => ?_
      refine (C.assign name hvalue).bind fun _ _ => ?_
      exact follows_note (.bound hvalue) (.pure hvalue)
    | none => exact C.fail nofun
  | _ :: _ :: _ :: _ => C.fail nofun

theorem evaluateAll (C : h.Confines P F) : ∀ items : List Expr,
    Follows h P F (Traced.evaluateAll h items) (Turn.evaluateAll h items)
      fun values => values.length = items.length ∧ ∀ value ∈ values, P value
  | [] => by
    rw [Traced.evaluateAll, Turn.evaluateAll]
    exact .pure ⟨rfl, by simp⟩
  | e :: rest => by
    rw [Traced.evaluateAll, Turn.evaluateAll]
    refine (evaluate C e).bind fun value hvalue => ?_
    refine (evaluateAll C rest).bind fun values hvalues => ?_
    refine .pure ⟨by rw [List.length_cons, List.length_cons, hvalues.1], ?_⟩
    exact List.forall_mem_cons.mpr ⟨hvalue, hvalues.2⟩

end

/-- Pieces of code, one after another, keep within `P` too. -/
theorem evaluateEach (C : h.Confines P F) : ∀ (code : List Expr)
    {s : TurnState κ σ × List (ValueEvent κ)}, Traced.Within h P s →
      (Traced.evaluateEach h code s).1 = Turn.evaluateEach h code s.1 ∧
        Traced.Within h P (Traced.evaluateEach h code s)
  | [], _, hs => ⟨rfl, hs⟩
  | e :: rest, s, hs => by
    obtain ⟨hturn, hwithin, -⟩ := C.evaluate e s hs
    have hstate : ((Traced.evaluate h e).result s).2.1 = ((Turn.evaluate h e).result s.1).2 := by
      rw [hturn]
    have hrest := evaluateEach C rest hwithin
    rw [hstate] at hrest
    exact hrest

end Host.Confines

end Colloquy
