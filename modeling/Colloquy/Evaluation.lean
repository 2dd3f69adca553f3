import Colloquy.Host

/-!
# Evaluation

Code runs inside a turn: bindings that `set*` changes, and a host whose functions can be called.
A number or a string is its own value, a symbol is looked up, and a list calls the function that
its head evaluates to on the values of the other items, from left to right. The one exception is
`(set* <symbol> <expr>)`, which rebinds a name that is already bound.

A turn that fails still leaves its state behind, since functions of the host act at once.
-/

namespace Colloquy

/-- The state of a turn. -/
structure TurnState (κ σ : Type) where
  bindings : Bindings κ
  host : σ

/-- A step of a turn. -/
abbrev Turn (κ σ : Type) := Action (TurnState κ σ)

namespace Turn

variable {κ σ : Type}

/-- Fails for a cause of evaluation. -/
def fail {α : Type} (cause : EvaluationFault) : Turn κ σ α := throw (.evaluation cause)

/-- An action of the host inside a turn. -/
def onHost {α : Type} (a : Action σ α) : Turn κ σ α :=
  a.within (·.host) fun state host => { state with host }

/-- The value bound to a name. -/
def lookup (name : String) : Turn κ σ (Value κ) := do
  match (← get).bindings.find? name with
  | some value => pure value
  | none => fail (.undefinedSymbol name)

/-- Binds a name anew; it has to be bound already. -/
def assign (name : String) (value : Value κ) : Turn κ σ Unit := do
  let state ← get
  if state.bindings.contains name then
    set { state with bindings := state.bindings.insert name value }
  else fail (.undefinedSymbol name)

/-- The function that the head of a list evaluated to. -/
def callee (head : Expr) : Value κ → Turn κ σ (Native κ)
  | .function f => pure f
  | other => fail (.notCallable (head.symbol?.getD head.kindName) other.kindName)

mutual

/-- The value of an expression. -/
def evaluate (h : Host κ σ) : Expr → Turn κ σ (Value κ)
  | .number value => pure (.number value)
  | .text value => pure (.text value)
  | .symbol name => lookup name
  | .list items => evaluateList h items

/-- The value of a list with the given items. -/
def evaluateList (h : Host κ σ) : List Expr → Turn κ σ (Value κ)
  | [] => fail .emptyList
  | head :: args =>
    if head.symbol? = some "set*" then evaluateAssignment h args
    else do
      let f ← callee head (← evaluate h head)
      -- A wrong number of arguments is refused before any of them is evaluated.
      Action.ofExcept (h.checkCount f args.length)
      let values ← evaluateAll h args
      onHost (h.apply f values)

/-- Runs an assignment with the given items after its head; its value is the one assigned. -/
def evaluateAssignment (h : Host κ σ) : List Expr → Turn κ σ (Value κ)
  | [target, e] =>
    match target.symbol? with
    | some name => do
      let value ← evaluate h e
      assign name value
      pure value
    | none => fail (.typeMismatch "set*" "a symbol to assign" target.kindName)
  | items => fail (.assignmentCount items.length)

/-- The values of expressions, from left to right. -/
def evaluateAll (h : Host κ σ) : List Expr → Turn κ σ (List (Value κ))
  | [] => pure []
  | e :: rest => do
    let value ← evaluate h e
    let values ← evaluateAll h rest
    pure (value :: values)

end

/-- Whether a condition holds: its value has to be a number, and it holds above zero. -/
def evaluateCondition (h : Host κ σ) (condition : Expr) : Turn κ σ Bool := do
  match (← evaluate h condition).expectNumber "Condition" with
  | .ok x => pure (x > 0)
  | .error cause => fail cause

/-- Runs pieces of code for their effects. -/
def executeBlock (h : Host κ σ) : List Expr → Turn κ σ Unit
  | [] => pure ()
  | e :: rest => do
    let _ ← evaluate h e
    executeBlock h rest

/-- Runs a turn on the bindings that the host seeds, and gives the final bindings too. -/
def play {α : Type} (h : Host κ σ) (turn : Turn κ σ α) : Action σ (α × Bindings κ) :=
  .of fun host =>
    match h.turnBindings host with
    | .error fault => (.error fault, host)
    | .ok bindings =>
      match turn.result ⟨bindings, host⟩ with
      | (.ok result, state) => (.ok (result, state.bindings), state.host)
      | (.error fault, state) => (.error fault, state.host)

end Turn

end Colloquy
