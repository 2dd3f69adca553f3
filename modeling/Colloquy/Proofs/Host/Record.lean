import Colloquy.Proofs.Playthrough.Simulation

/-!
# Hosts that keep a record

`Host.recorded` is a host that does what the given one does and writes down, beside its state, every
call of its functions and every absorbing together with how it went. The record is what statements
about "how often" and "with what" a host was asked are about.

Main statement, `Game.act_recorded`: the record changes nothing else. Every operation gives the same
answer and leaves the same playthrough and the same state of the host, recorded or not.
-/

namespace Colloquy

open Colloquy.Action (InStep)

variable {κ σ α : Type}

/-- Something that a host was asked to do, and how it went. -/
inductive HostEvent (κ : Type)
  | called (f : κ) (args : List (Value κ)) (answer : Except Fault (Value κ))
  | absorbed (bindings : Bindings κ) (answer : Except Fault Unit)

/-- A state of a host with the record of what it was asked for so far. -/
abbrev Recorded (κ σ : Type) := σ × List (HostEvent κ)

/-- Does an action of the host and writes down how it went. -/
def Action.noting (event : Except Fault α → HostEvent κ) (a : Action σ α) :
    Action (Recorded κ σ) α :=
  .of fun state =>
    let (answer, after) := a.result state.1
    (answer, (after, state.2 ++ [event answer]))

namespace Host

/-- The host, keeping a record. -/
def recorded (h : Host κ σ) : Host κ (Recorded κ σ) where
  signature := h.signature
  call f args := (h.call f args).noting (.called f args)
  seed state := h.seed state.1
  absorb bindings := (h.absorb bindings).noting (.absorbed bindings)

@[simp] theorem result_recorded_call (h : Host κ σ) (f : κ) (args : List (Value κ))
    (state : Recorded κ σ) :
    (h.recorded.call f args).result state
      = (((h.call f args).result state.1).1, (((h.call f args).result state.1).2,
          state.2 ++ [.called f args ((h.call f args).result state.1).1])) := rfl

@[simp] theorem result_recorded_absorb (h : Host κ σ) (bindings : Bindings κ)
    (state : Recorded κ σ) :
    (h.recorded.absorb bindings).result state
      = (((h.absorb bindings).result state.1).1, (((h.absorb bindings).result state.1).2,
          state.2 ++ [.absorbed bindings ((h.absorb bindings).result state.1).1])) := rfl

/-- Keeping a record makes no difference to code. -/
theorem recorded_simulation (h : Host κ σ) :
    Simulation (· = ·) (fun (state : Recorded κ σ) s => state.1 = s) h.recorded h where
  literal _ := rfl
  builtin := Builtin.apply_of_eq
  signature _ := rfl
  call f xs ys hargs := by
    rintro state s hs
    rw [Value.eq_of_forall₂ hargs, result_recorded_call, hs]
    exact ⟨Agree.refl (Value.Related.refl fun _ => rfl) _, rfl⟩
  seed := by
    rintro state s rfl
    exact Agree.refl (NameMap.Related.refl (Value.Related.refl fun _ => rfl)) _

theorem recorded_absorb (h : Host κ σ) (bindings : Bindings κ) :
    InStep (fun (state : Recorded κ σ) s => state.1 = s) (fun _ _ => True)
      (h.recorded.absorb bindings) (h.absorb bindings) := by
  rintro state s rfl
  exact ⟨Agree.refl (fun _ => trivial) _, rfl⟩

end Host

namespace Game

/-- The game on a host that keeps a record, which is still empty. -/
def recorded (game : Game σ) : Game (Recorded κ σ) := ⟨game.play, (game.host, [])⟩

/-- Actions on a game that are in step with and without a record differ by the record alone. -/
theorem result_recorded {a : Action (Game (Recorded κ σ)) α} {b : Action (Game σ) α}
    (hab : InStep (Related fun (state : Recorded κ σ) s => state.1 = s) (· = ·) a b)
    (game : Game σ) :
    ∃ log, a.result game.recorded
      = ((b.result game).1, ⟨(b.result game).2.play, ((b.result game).2.host, log)⟩) := by
  obtain ⟨hanswer, hplay, hhost⟩ := hab game.recorded game ⟨rfl, rfl⟩
  refine ⟨(a.result game.recorded).2.host.2, ?_⟩
  rw [← hanswer.eq, ← hplay, ← hhost]

theorem submit_recorded (h : Host κ σ) (index : Nat) (game : Game σ) :
    ∃ log, (submit h.recorded index).result game.recorded
      = (((submit h index).result game).1, ⟨((submit h index).result game).2.play,
          (((submit h index).result game).2.host, log)⟩) :=
  result_recorded (h.recorded_simulation.submit h.recorded_absorb index) game

/-- An operation gives the same answer and leaves the same game when a record is kept. -/
theorem act_recorded (h : Host κ σ) (operation : Operation) (game : Game σ) :
    ∃ log, (act h.recorded operation).result game.recorded
      = (((act h operation).result game).1, ⟨((act h operation).result game).2.play,
          (((act h operation).result game).2.host, log)⟩) :=
  result_recorded (h.recorded_simulation.act h.recorded_absorb operation) game

end Game

end Colloquy
