import Colloquy.Fault

/-!
# Actions that can fail

An action works on a state and gives a result or a fault. Its effects on the state stay in both
cases, so a failed action says what it failed with and what it left behind.
-/

namespace Colloquy

/-- A computation on a state that can fail; the state survives a failure. -/
abbrev Action (σ : Type) := ExceptT Fault (StateM σ)

namespace Action

variable {σ τ α : Type}

/-- The action with the given results. -/
def of (f : σ → Except Fault α × σ) : Action σ α := ExceptT.mk f

/-- What an action gives and leaves behind. -/
def result (a : Action σ α) (state : σ) : Except Fault α × σ := (ExceptT.run a).run state

/-- Fails or succeeds without an effect. -/
def ofExcept : Except Fault α → Action σ α
  | .ok value => pure value
  | .error fault => throw fault

/-- An action on a part of a larger state. -/
def within (part : τ → σ) (replace : τ → σ → τ) (a : Action σ α) : Action τ α :=
  of fun whole =>
    let (result, state) := a.result (part whole)
    (result, replace whole state)

/-- The action, with its failure as a result. -/
def attempt (a : Action σ α) : Action σ (Except Fault α) :=
  of fun state =>
    let (result, state) := a.result state
    (.ok result, state)

end Action

end Colloquy
