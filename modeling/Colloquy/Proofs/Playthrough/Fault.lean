import Colloquy.Proofs.Dialogue.Fault
import Colloquy.Proofs.Playthrough.Operation
import Colloquy.Proofs.Sandbox.Host

/-!
# What playing fails with

A step of the player fails with a fault of play, or with what code and the host fail with, and with
nothing else (`Host.Raises.act`). None of these ends loading, on the sandbox as well as on the bare
host, while building fails with those that do. Main statement, `loading_and_playing_apart`: the
faults of building and those of playing are told apart by their kinds.
-/

namespace Colloquy

open Colloquy.Action (FailsIn)

variable {κ σ : Type}

namespace Host.Raises

variable {P : Fault → Prop} {h : Host κ σ} (H : h.Raises P) (hplay : ∀ cause, P (.play cause))

include H in
theorem leave (hrange : ∀ label index count, P (.play (.indexOutOfRange label index count)))
    (p : Playthrough) (view : View) (label : Label) (index : Nat) :
    FailsIn P (Playthrough.leave h p view label index) := by
  unfold Playthrough.leave
  split
  · exact H.continueFrom hrange _ _
  · exact H.choose hrange _ _ _ _

include hplay in
theorem checkSnapshot (d : Dialogue) (snapshot : Snapshot) :
    RefusesIn P (Playthrough.checkSnapshot d snapshot) := by
  unfold Playthrough.checkSnapshot
  split
  · exact .error (hplay _)
  · split
    · exact .ok ()
    · split
      · exact .ok ()
      · exact .error (hplay _)

include hplay in
theorem currentView : FailsIn P (Game.currentView : Action (Game σ) View) := by
  refine FailsIn.get.bind fun game => ?_
  split
  · exact .pure _
  · exact .throw (hplay _)

theorem display (view : Option View) : FailsIn P (Game.display view : Action (Game σ) Unit) := by
  intro game fault after hfail
  cases hfail

include H hplay

theorem begin (d : Dialogue) (indexing : Indexing) (label : Option String) :
    FailsIn P (Playthrough.begin h d indexing label) := by
  cases label with
  | none => exact .pure _
  | some name => exact (H.build (.inr (hplay _))).bind fun _ => .pure _

theorem resume (d : Dialogue) (snapshot : Snapshot) :
    FailsIn P (Playthrough.resume h d snapshot) :=
  FailsIn.bind (.ofExcept (checkSnapshot hplay d snapshot)) fun _ => H.begin hplay d _ _

omit H hplay in
theorem replace {next : Dialogue → Action σ Playthrough} (hnext : ∀ d, FailsIn P (next d)) :
    FailsIn P (Game.replace next) := by
  refine FailsIn.get.bind fun game => ?_
  refine FailsIn.bind (hnext _).within fun play => ?_
  intro game fault after hfail
  cases hfail

theorem enter (name : String) : FailsIn P (Game.enter h name) := by
  refine FailsIn.get.bind fun game => ?_
  exact FailsIn.bind (H.build (.inr (hplay _))).within fun view => display _

theorem refresh : FailsIn P (Game.refresh h) :=
  (currentView hplay).bind fun view => H.enter hplay view.label

/-- A submission fails with what its turn, the label that it goes to or the absorbing fails with, or
because there is nothing to submit to. -/
theorem submit (habsorb : ∀ bindings, FailsIn P (h.absorb bindings)) (index : Nat) :
    FailsIn P (Game.submit h index) := by
  intro game fault after hfail
  have hsubmission := Game.submission h index game
  rw [hfail] at hsubmission
  cases hsubmission with
  | ended => exact hplay _
  | lost hview hlabel =>
    unfold Playthrough.resolve at hlabel
    split at hlabel
    · cases hlabel
    · cases hlabel
      exact hplay _
  | refused here hleave => exact H.leave (fun _ _ _ => hplay _) _ _ _ _ _ _ _ hleave
  | unbuilt here hleave hbuild => exact H.build (.inr (hplay _)) _ _ _ hbuild
  | unabsorbed here hleave hbuild hrefused => exact habsorb _ _ _ _ hrefused
  | unfinished here hleave hrefused => exact habsorb _ _ _ _ hrefused

/-- Whatever is done to a game fails with a fault of play or as code and the host do. -/
theorem act (habsorb : ∀ bindings, FailsIn P (h.absorb bindings)) (operation : Operation) :
    FailsIn P (Game.act h operation) := by
  cases operation with
  | start indexing => exact (replace fun d => H.begin hplay d _ _).bind fun _ => .pure _
  | resume snapshot => exact (replace fun d => H.resume hplay d _).bind fun _ => .pure _
  | enter label => exact (H.enter hplay label).bind fun _ => .pure _
  | refresh => exact (H.refresh hplay).bind fun _ => .pure _
  | submit index => exact (H.submit hplay habsorb index).bind fun _ => .pure _

end Host.Raises

/-! ## Building and playing -/

/-- The fault does not end loading. -/
abbrev Fault.Playing (fault : Fault) : Prop := fault.kind.isLoadFailure = false

theorem Fault.playing_evaluation (cause : EvaluationFault) : (Fault.evaluation cause).Playing := by
  cases cause <;> rfl

theorem Fault.playing_play (cause : PlayFault) : (Fault.play cause).Playing := by
  cases cause <;> rfl

theorem Sandbox.act_playing (operation : Operation) :
    FailsIn Fault.Playing (Game.act Sandbox.host operation) := by
  have hraises : Sandbox.host.Raises Fault.Playing :=
    Sandbox.raises Fault.playing_evaluation fun _ _ _ => rfl
  exact hraises.act Fault.playing_play (Sandbox.absorb_failsIn fun _ _ _ => rfl) operation

theorem Host.act_playing_of_bare (operation : Operation) :
    FailsIn Fault.Playing (Game.act Host.bare operation) := by
  have hraises : Host.bare.Raises Fault.Playing := {
    evaluation := Fault.playing_evaluation
    call := nofun
    seed := fun s fault hseed => by cases hseed }
  exact hraises.act Fault.playing_play (fun _ => .pure _) operation

/-- **Building and playing fail apart.** Built leniently, the files of a program are refused only
with faults that end loading. Built strictly, they come to the same, or a dialogue that is built
leniently is refused for an unknown label. No operation, on any dialogue and from any state, fails
with a fault that ends loading: not in the sandbox, and not without a host of one's own. -/
theorem loading_and_playing_apart :
    (∀ sources fault, Program.ofSources false sources = .error fault →
      fault.kind.isLoadFailure = true) ∧
    (∀ sources, Program.ofSources true sources = Program.ofSources false sources ∨
      ∃ program fault, Program.ofSources false sources = .ok program ∧
        Program.ofSources true sources = .error fault ∧ fault.kind = .unknownLabel) ∧
    (∀ operation (game after : Game Sandbox.State) fault,
      (Game.act Sandbox.host operation).result game = (.error fault, after) →
        fault.kind.isLoadFailure = false) ∧
    ∀ operation (game after : Game Unit) fault,
      (Game.act Host.bare operation).result game = (.error fault, after) →
        fault.kind.isLoadFailure = false := by
  refine ⟨Program.ofSources_loading, Program.strict_or_unknown, ?_, ?_⟩
  · intro operation game after fault hfail
    exact Sandbox.act_playing operation game fault after hfail
  · intro operation game after fault hfail
    exact Host.act_playing_of_bare operation game fault after hfail

/-- A dialogue that leads to a label that is not there. -/
def strayForms : List Expr := [
  .list [.symbol "label", .symbol "a", .list [.symbol "text", .text "A"],
    .list [.symbol "after", .symbol "jump", .symbol "b"]],
  .list [.symbol "start-dialogue", .symbol "a"]]

def strayScript : String := "(label a (text \"A\") (after jump b)) (start-dialogue a)"

/-- A game of it, at its one label. -/
def strayGame : Game Sandbox.State :=
  ⟨⟨⟨"a", .ofList [("a", ⟨"a", "A", none, some ⟨[], some "b"⟩⟩)]⟩, .declared,
    some ⟨"a", "A", [Playthrough.continueText], []⟩⟩, .empty⟩

theorem ofSources_strayScript (strict : Bool) :
    Program.ofSources strict (.ofList [("a", strayScript)])
      = (Program.ofForms strict strayForms).mapError .grammar := by
  have hread : readSource strayScript = .ok strayForms := by with_unfolding_all rfl
  have hreads : Program.Reads (.ofList [("a", strayScript)]) strayForms :=
    ⟨[strayForms], .cons hread .nil, rfl⟩
  exact hreads.ofSources strict

/-- A parenthesis too many ends loading. To lead to a label that is not there is refused by strict
building, and otherwise ends the turn that goes there. -/
theorem apart_on_stray_target :
    (∃ fault, Program.ofSources false (.ofList [("a", ")")]) = .error fault ∧
      fault.kind.isLoadFailure = true) ∧
    (∃ program fault, Program.ofSources false (.ofList [("a", strayScript)]) = .ok program ∧
      Program.ofSources true (.ofList [("a", strayScript)]) = .error fault ∧
      fault.kind = .unknownLabel) ∧
    ∃ fault after, (Game.act Sandbox.host (.submit 0)).result strayGame = (.error fault, after) ∧
      fault.kind.isLoadFailure = false := by
  obtain ⟨hloading, hstrict, hsandbox, -⟩ := loading_and_playing_apart
  refine ⟨?_, ?_, ?_⟩
  · have hfail : Program.ofSources false (.ofList [("a", ")")])
        = .error (.inFile "a" (.strayClose ⟨⟨1, 1⟩, ⟨1, 2⟩⟩)) := by with_unfolding_all rfl
    exact ⟨_, hfail, hloading _ _ hfail⟩
  · rcases hstrict (.ofList [("a", strayScript)]) with hsame | hunknown
    · -- it is not built alike, since the target is looked for
      rw [ofSources_strayScript, ofSources_strayScript] at hsame
      cases hsame
    · exact hunknown
  · have hfail : (Game.act Sandbox.host (.submit 0)).result strayGame
        = (.error (.play (.unknownLabel "b")), strayGame) := rfl
    exact ⟨_, _, hfail, hsandbox (.submit 0) _ _ _ hfail⟩

end Colloquy
