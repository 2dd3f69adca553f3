import Colloquy.Proofs.Host.Record
import Colloquy.Proofs.Sandbox.Host

/-!
# What a failed operation leaves in the sandbox

Variables are written back when a turn is over, but `move` acts at once, so an operation that fails
after a move has moved the pawn all the same. Main statement: `host_of_failed_operation`. An
operation that fails leaves the playthrough and every variable as they were; the pawn is where the
moves that succeeded before the failure took it, and the sandbox is unchanged exactly when these
moves lead back to where the pawn was. `failed_submission_moves_pawn` is a submission for which they
do not.

The moves are read off the record that the operation leaves when the sandbox keeps one.
-/

namespace Colloquy.Sandbox

/-- The offsets of a move that took place. -/
def offsets? : HostEvent Function → Option (Float × Float × Float)
  | .called .move args (.ok _) => (moveArguments args).toOption.map (·.2)
  | _ => none

/-- Where a pawn is after the moves of a record. -/
def pawnAfter (log : List (HostEvent Function)) (p : Point) : Point :=
  (log.filterMap offsets?).foldl (fun p offsets => p.shift offsets.1 offsets.2.1 offsets.2.2) p

theorem pawnAfter_append (log log' : List (HostEvent Function)) (p : Point) :
    pawnAfter (log ++ log') p = pawnAfter log' (pawnAfter log p) := by
  unfold pawnAfter
  rw [List.filterMap_append, List.foldl_append]

/-- The sandbox is the given one, but for the moves of its record. -/
def MovedFrom (s : State) (state : Recorded Function State) : Prop :=
  state.1 = { s with pawn := pawnAfter state.2 s.pawn }

/-- Calls keep to moving the pawn, and every move is in the record. -/
theorem keeps_movedFrom (s : State) : host.recorded.Keeps (MovedFrom s) := by
  rintro ⟨⟩ args state hmoved
  have hcall := moved args state.1
  rw [Host.result_recorded_call]
  generalize (host.call .move args).result state.1 = result at hcall
  unfold MovedFrom at hmoved ⊢
  rw [pawnAfter_append]
  -- the record grows by this call, which counts as a move just if the pawn was shifted
  cases hcall with
  | @shifted dx dy dz hargs =>
    rw [hmoved]
    simp [pawnAfter, offsets?, hargs, Except.toOption]
  | refused fault => exact hmoved

/-- An absorbing that fails moves nothing. -/
theorem movedFrom_of_absorb_error {s : State} {bindings : Bindings Function}
    {state state' : Recorded Function State} {fault : Fault} (hmoved : MovedFrom s state)
    (hfail : (host.recorded.absorb bindings).result state = (.error fault, state')) :
    MovedFrom s state' := by
  rw [Host.result_recorded_absorb] at hfail
  obtain ⟨hanswer, rfl⟩ := Prod.mk.inj hfail
  have hsame : ((host.absorb bindings).result state.1).2 = state.1 :=
    eq_of_absorb_error (Prod.ext hanswer rfl)
  unfold MovedFrom
  -- the absorbing is in the record, but it is no move
  rw [hsame, hanswer, pawnAfter_append]
  exact hmoved

/-- **An operation that fails changes the sandbox by its moves only.** The playthrough and the
variables are as before. The pawn is where the moves that succeeded took it, so the sandbox is
unchanged exactly when these lead back to where it was. -/
theorem host_of_failed_operation {operation : Operation} {game after : Game State} {fault : Fault}
    (hfail : (Game.act host operation).result game = (.error fault, after)) :
    ∃ log,
      (Game.act host.recorded operation).result game.recorded
        = (.error fault, ⟨after.play, (after.host, log)⟩) ∧
      after.play = game.play ∧
      after.host = { game.host with pawn := pawnAfter log game.host.pawn } ∧
      (after.host = game.host ↔ pawnAfter log game.host.pawn = game.host.pawn) := by
  obtain ⟨log, hrecorded⟩ := Game.act_recorded host operation game
  rw [hfail] at hrecorded
  have hstart : MovedFrom game.host game.recorded.host := rfl
  obtain ⟨hplay, hhost⟩ := (keeps_movedFrom game.host).act_of_error
    (fun _ _ _ _ hmoved habsorb => movedFrom_of_absorb_error hmoved habsorb) hstart hrecorded
  have hmoved : after.host = { game.host with pawn := pawnAfter log game.host.pawn } := hhost
  refine ⟨log, hrecorded, hplay, hmoved, ?_⟩
  rw [hmoved]
  constructor
  · intro hsame
    exact congrArg State.pawn hsame
  · intro hback
    rw [hback]

/-- A label that moves the pawn and then calls something that is not there. -/
def stumble : Game State where
  play := {
    dialogue := ⟨"a", .ofList [("a", {
      name := "a"
      text := "A"
      choices := none
      after := some ⟨[
        .list [.symbol "move", .symbol "self-pawn", .number 1, .number 0, .number 0],
        .list [.symbol "nope"]], some "a"⟩ })]⟩
    indexing := .declared
    view := some ⟨"a", "A", [Playthrough.continueText], []⟩ }
  host := .empty

/-- The submission fails, and its record holds the one move that took the pawn away. -/
theorem host_of_stumble :
    (Game.act host (.submit 0)).result stumble
        = (.error (.evaluation (.undefinedSymbol "nope")), ⟨stumble.play, ⟨⟨1, 0, 0⟩, .empty⟩⟩) ∧
      ∃ log,
        (Game.act host.recorded (.submit 0)).result stumble.recorded
          = (.error (.evaluation (.undefinedSymbol "nope")),
              ⟨stumble.play, (⟨⟨1, 0, 0⟩, .empty⟩, log)⟩) ∧
        pawnAfter log .origin = ⟨1, 0, 0⟩ := by
  have hfail : (Game.act host (.submit 0)).result stumble
      = (.error (.evaluation (.undefinedSymbol "nope")), ⟨stumble.play, ⟨⟨1, 0, 0⟩, .empty⟩⟩) := rfl
  obtain ⟨log, hrecorded, -, hmoved, -⟩ := host_of_failed_operation hfail
  exact ⟨hfail, log, hrecorded, (congrArg State.pawn hmoved).symm⟩

/-- A failed submission can leave the pawn elsewhere. -/
theorem failed_submission_moves_pawn :
    ¬ ∀ (operation : Operation) (game after : Game State) (fault : Fault),
      (Game.act host operation).result game = (.error fault, after) → after.host = game.host := by
  intro hunchanged
  have hpawn := congrArg State.pawn (hunchanged (.submit 0) stumble _ _ rfl)
  revert hpawn
  decide

end Colloquy.Sandbox
