import Colloquy.Proofs.Evaluation.Trace
import Colloquy.Proofs.Sandbox.Host

/-!
# Scripts forge no handles

The only handle that a turn starts with is the pawn's, no literal is a handle and no function gives
one. And a function is entered after its arguments are counted, whatever name it is called by. So what
the functions keep for other handles and for other numbers of arguments is never come to: the sandbox
refuses no move, and builtins refuse no number of arguments nor fold over none. Main statement:
`handles_not_forged`, about any pieces of code evaluated one after another from what a sandbox seeds;
`confines` says what is kept to, of which `Host.Confines.evaluate` makes a law of all code.
-/

namespace Colloquy

/-! ## What values fail to be -/

/-- A number of arguments that a function refuses is told by the words of its arity, never by those
that a test of two numbers has of its own. -/
theorem Arity.text_ne_two (arity : Arity) : arity.text ≠ "2 arguments" := by
  intro h
  have hfirst : arity.text.toList.head? = some '2' := by rw [h]; rfl
  unfold Arity.text at hfirst
  split at hfirst <;> simp at hfirst
  -- a number that is not written out: the words around it start with another letter
  all_goals
    rcases hfirst with hfirst | ⟨hempty, -⟩
    · exact absurd hfirst (by decide)
    · exact absurd hempty (by decide)

section Kinds

variable {κ : Type} {v : Value κ} {context : String} {cause : EvaluationFault}

theorem Value.expectNumber_eq_error (h : v.expectNumber context = .error cause) :
    cause = .typeMismatch context "number" v.kindName := by
  cases v with
  | number x => cases h
  | _ =>
    cases h
    rfl

end Kinds

namespace Builtin

variable {κ : Type} {b : Builtin} {cause : EvaluationFault}

theorem numbers_eq_error : ∀ {args : List (Value κ)}, b.numbers args = .error cause →
    ∃ context found, cause = .typeMismatch context "number" found
  | [], h => by cases h
  | v :: args, h => by
    rw [numbers_cons] at h
    cases hv : v.expectNumber s!"\"{b.name}\"" with
    | error other =>
      rw [hv] at h
      cases h
      exact ⟨_, _, Value.expectNumber_eq_error hv⟩
    | ok x =>
      rw [hv] at h
      cases hargs : b.numbers args with
      | error other =>
        rw [hargs] at h
        cases h
        exact numbers_eq_error hargs
      | ok xs =>
        rw [hargs] at h
        cases h

theorem numbers_map_eq_error {args : List (Value κ)} {f : List Float → Value κ}
    (h : (b.numbers args).map f = .error cause) :
    ∃ context found, cause = .typeMismatch context "number" found :=
  numbers_eq_error (map_eq_error.mp h)

theorem compare_eq_error {test : Float → Float → Bool} {args : List (Value κ)}
    (htwo : args.length = 2) (h : b.compare test args = .error cause) :
    ∃ context found, cause = .typeMismatch context "number" found := by
  unfold compare at h
  cases hnumbers : b.numbers args with
  | error other =>
    rw [hnumbers] at h
    cases h
    exact numbers_eq_error hnumbers
  | ok xs =>
    obtain ⟨x, y, rfl⟩ : ∃ x y, xs = [x, y] := by
      rw [numbers_eq_ok hnumbers, List.length_map] at htwo
      exact List.length_eq_two.mp htwo
    rw [hnumbers] at h
    cases h

/-- A builtin with as many arguments as it takes can only refuse one that is no number. -/
theorem apply_eq_error {args : List (Value κ)} (hcount : b.signature.arity.accepts args.length = true)
    (h : b.apply args = .error cause) :
    ∃ context found, cause = .typeMismatch context "number" found := by
  cases b
  case add | subtract | multiply | divide | not | and | or => exact numbers_map_eq_error h
  case reaches | less | greater | lessEqual | greaterEqual | equal =>
    exact compare_eq_error (of_decide_eq_true hcount) h

end Builtin

namespace Sandbox

/-! ## What is kept to -/

/-- A handle that the value is can only be the pawn's. -/
def Genuine (value : Value Function) : Prop := ∀ id, value = .handle id → id = pawnHandle

/-- The fault is none that functions have for what they are never given: a handle of no pawn, or
another number of arguments than they take. -/
structure Outward (fault : Fault) : Prop where
  handle : fault.code ≠ "SANDBOX_UNKNOWN_HANDLE"
  move : fault.code ≠ "SANDBOX_MOVE_ARGS"
  pair : ∀ function count, fault ≠ .evaluation (.wrongCount function "2 arguments" count)

theorem outward_of_evaluation {cause : EvaluationFault}
    (hcause : ∀ function takes count, cause = .wrongCount function takes count →
      ∃ arity : Arity, takes = arity.text) : Outward (.evaluation cause) where
  handle := by cases cause <;> simp [Fault.code, Fault.report, EvaluationFault.report, Report.ofKind,
    EvaluationFault.kind, FaultKind.code]
  move := by cases cause <;> simp [Fault.code, Fault.report, EvaluationFault.report, Report.ofKind,
    EvaluationFault.kind, FaultKind.code]
  pair := by
    rintro function count h
    obtain ⟨arity, htext⟩ := hcause _ _ _ (Fault.evaluation.inj h)
    exact arity.text_ne_two htext.symm

theorem outward_of_mismatch (context expected found : String) :
    Outward (.evaluation (.typeMismatch context expected found)) :=
  outward_of_evaluation nofun

/-- What `move` reads from four arguments are a handle among them and three numbers, if none is of
another kind. -/
theorem moveArguments_of_four : ∀ {args : List (Value Function)}, args.length = 4 →
    (∃ handle dx dy dz, moveArguments args = .ok (handle, dx, dy, dz) ∧ .handle handle ∈ args) ∨
      ∃ expected found, moveArguments args
        = .error (.evaluation (.typeMismatch "move" expected found))
  | [target, dx, dy, dz], _ => by
    cases target with
    | handle id =>
      cases dx with
      | number x =>
        cases dy with
        | number y =>
          cases dz with
          | number z => exact .inl ⟨id, x, y, z, rfl, List.mem_cons_self ..⟩
          | _ => exact .inr ⟨_, _, rfl⟩
        | _ => exact .inr ⟨_, _, rfl⟩
      | _ => exact .inr ⟨_, _, rfl⟩
    | _ => exact .inr ⟨_, _, rfl⟩

/-- A move of a genuine handle is never refused for its handle or for the number of its arguments. -/
theorem answers_of_move {args : List (Value Function)} (hcount : args.length = 4)
    (hargs : ∀ value ∈ args, Genuine value) (s : State) :
    Answers Genuine Outward ((host.run (.own .move) args).result s).1 := by
  show Answers Genuine Outward ((call .move args).result s).1
  unfold call
  dsimp only
  rcases moveArguments_of_four hcount with
    ⟨handle, dx, dy, dz, hmove, hhandle⟩ | ⟨expected, found, hmove⟩
  · rw [hmove, Action.result_bind_of_ok (Action.result_ofExcept _ s)]
    dsimp only
    rw [if_pos (hargs _ hhandle handle rfl)]
    intro id hnone
    cases hnone
  · rw [hmove, Action.result_bind_of_error (Action.result_ofExcept _ s)]
    exact outward_of_mismatch "move" expected found

/-- A builtin gives a number or refuses something that is none. -/
theorem answers_of_builtin {b : Builtin} {args : List (Value Function)}
    (hcount : b.signature.arity.accepts args.length = true) (s : State) :
    Answers Genuine Outward ((host.run (.builtin b) args).result s).1 := by
  rw [Host.run, Action.result_ofExcept]
  cases happly : b.apply args with
  | error cause =>
    obtain ⟨context, found, rfl⟩ := Builtin.apply_eq_error hcount happly
    exact outward_of_mismatch context "number" found
  | ok value =>
    obtain ⟨-, x, rfl⟩ := Builtin.apply_eq_ok happly
    intro id hnumber
    cases hnumber

/-- The sandbox keeps to genuine values and outward faults. -/
theorem confines : host.Confines Genuine Outward where
  number _ _ h := nomatch h
  text _ _ h := nomatch h
  refusal _ hcause := outward_of_evaluation hcause
  run f args haccepts s := by
    cases f with
    | builtin b => exact answers_of_builtin haccepts.count s
    | own f =>
      cases f
      exact answers_of_move (of_decide_eq_true haccepts.count) haccepts.args s

/-- A turn starts from genuine values. -/
theorem genuine_seed (s : State) : Bindings.Within Genuine (seed s Bindings.builtins) := by
  have hbuiltins : Bindings.Within Genuine Bindings.builtins := by
    refine Bindings.Within.insertAll (fun name value hfound => by cases hfound) fun e he => ?_
    obtain ⟨b, -, rfl⟩ := List.mem_map.mp he
    exact fun _ h => nomatch h
  have hvars : ∀ e ∈ s.vars.entries.map fun v => (v.1, (.number v.2 : Value Function)),
      Genuine e.2 := by
    intro e he
    obtain ⟨v, -, rfl⟩ := List.mem_map.mp he
    exact fun _ h => nomatch h
  have hpawn : Genuine (.handle pawnHandle) := fun _ h => (Value.handle.inj h).symm
  have hmove : Genuine (.function (.own .move)) := fun _ h => nomatch h
  exact ((hbuiltins.insertAll hvars).insert hpawn pawnName).insert hmove (signature .move).name

/-! ## Runs -/

/-- A function is entered with as many arguments as it takes, all of them genuine, and so none that
it would have to refuse as the wrong handle or the wrong number, and some to take a difference or a
quotient of. -/
structure Entered (f : Native Function) (args : List (Value Function)) : Prop where
  count : (host.signatureOf f).arity.accepts args.length = true
  genuine : ∀ value ∈ args, Genuine value
  operands : f = .builtin .subtract ∨ f = .builtin .divide → args ≠ []
  refusal : ∀ fault s s', (host.run f args).result s = (.error fault, s') → Outward fault

theorem entered_of_accepts {f : Native Function} {args : List (Value Function)}
    (haccepts : host.Accepts Genuine f args) : Entered f args where
  count := haccepts.count
  genuine := haccepts.args
  operands := by
    rintro (rfl | rfl) rfl
    · exact absurd haccepts.count (by decide)
    · exact absurd haccepts.count (by decide)
  refusal fault s s' hrun := by
    have hanswers := confines.run f args haccepts s
    rw [hrun] at hanswers
    exact hanswers

/-- **Scripts forge no handles.** Let pieces of code be evaluated one after another, whether or not
they fail, in the bindings that any sandbox seeds. Then every handle that is bound in the end, or was
computed or bound on the way, is the pawn's; every function was entered with as many arguments as it
takes, under whatever name it was called; and neither a function on the way nor the next piece of code
fails with one of the faults for other handles and other numbers of arguments. -/
theorem handles_not_forged (s : State) (code : List Expr) :
    let start : TurnState Function State := ⟨seed s Bindings.builtins, s⟩
    let traced := Traced.evaluateEach host code (start, [])
    traced.1 = Turn.evaluateEach host code start ∧
    (∀ name value, traced.1.bindings.find? name = some value → Genuine value) ∧
    (∀ value, .computed value ∈ traced.2 → Genuine value) ∧
    (∀ name value, .bound name value ∈ traced.2 → Genuine value) ∧
    (∀ f args, .entered f args ∈ traced.2 → Entered f args) ∧
    ∀ e, (∀ value, ((Turn.evaluate host e).result traced.1).1 = .ok value → Genuine value) ∧
      ∀ fault, ((Turn.evaluate host e).result traced.1).1 = .error fault → Outward fault := by
  intro start traced
  have hstart : Traced.Within host Genuine (start, []) := ⟨genuine_seed s, by simp⟩
  obtain ⟨hplain, hwithin⟩ := confines.evaluateEach code hstart
  refine ⟨hplain, hwithin.bindings, ?_, ?_, ?_, ?_⟩
  · intro value hvalue
    cases hwithin.events _ hvalue with
    | computed hgenuine => exact hgenuine
  · intro name value hvalue
    cases hwithin.events _ hvalue with
    | bound hgenuine => exact hgenuine
  · intro f args hentered
    cases hwithin.events _ hentered with
    | entered haccepts => exact entered_of_accepts haccepts
  · intro e
    obtain ⟨hturn, -, hanswers⟩ := confines.evaluate e traced hwithin
    rw [hturn]
    constructor
    · intro value hvalue
      rw [hvalue] at hanswers
      exact hanswers
    · intro fault hfault
      rw [hfault] at hanswers
      exact hanswers

/-- The pawn is moved by the name of the difference, in a sandbox whose variable hides `cmp`; the
difference without arguments is refused before it is entered. -/
theorem handles_not_forged_renamed :
    let s : State := ⟨.origin, .ofList [("cmp", 4)]⟩
    let code : List Expr := [.list [.symbol "set*", .symbol "cmp", .symbol "-"],
      .list [.symbol "set*", .symbol "-", .symbol "move"],
      .list [.symbol "-", .symbol "self-pawn", .number 1, .number 2, .number 3]]
    let traced := Traced.evaluateEach host code (⟨seed s Bindings.builtins, s⟩, [])
    traced.1.host.pawn = ⟨1, 2, 3⟩ ∧
      Entered (.own .move) [.handle 1, .number 1, .number 2, .number 3] ∧
      ∃ fault, ((Turn.evaluate host (.list [.symbol "cmp"])).result traced.1).1 = .error fault ∧
        Outward fault := by
  intro s code traced
  obtain ⟨-, -, -, -, hentered, hnext⟩ := handles_not_forged s code
  have hcount : ((Turn.evaluate host (.list [.symbol "cmp"])).result traced.1).1
      = .error (.evaluation (.wrongCount "-" "at least 1 argument" 0)) := rfl
  exact ⟨by decide +kernel, hentered _ _ (by decide +kernel), _, hcount, (hnext _).2 _ hcount⟩

end Sandbox

end Colloquy
