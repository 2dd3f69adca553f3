import Colloquy.Proofs.Host.Record

/-!
# A submission is a transaction

Whatever the host does, a submission that fails leaves the player where they were and no absorbing
of it succeeded; one that is ignored absorbs nothing; and one that moves the player absorbed once,
the bindings that its own turn ended with. Main statement: `submit_transaction`, about the record
of the absorbings that a host is asked for during one submission.
-/

namespace Colloquy

open Playthrough (leave build leaving)

variable {κ σ : Type}

/-- The absorbings of a record, in their order: the bindings and how it went. -/
def absorptions (log : List (HostEvent κ)) : List (Bindings κ × Except Fault Unit) :=
  log.filterMap fun
    | .absorbed bindings answer => some (bindings, answer)
    | .called .. => none

namespace Host

/-- Functions of a host absorb nothing. -/
theorem keeps_absorptions (h : Host κ σ)
    (P : List (Bindings κ × Except Fault Unit) → Prop) :
    h.recorded.Keeps fun state => P (absorptions state.2) := by
  intro f args state hP
  have hnone : absorptions (state.2 ++ [.called f args ((h.call f args).result state.1).1])
      = absorptions state.2 := by simp [absorptions]
  rw [result_recorded_call]
  show P (absorptions _)
  rw [hnone]
  exact hP

theorem absorptions_leave {h : Host κ σ} {p : Playthrough} {view : View} {label : Label}
    {index : Nat} {state state' : Recorded κ σ} {answer : Except Fault (Playthrough.Transition κ)}
    (hleave : (leave h.recorded p view label index).result state = (answer, state')) :
    absorptions state'.2 = absorptions state.2 := by
  have hkept := (h.keeps_absorptions (· = absorptions state.2)).leave p view label index rfl
  rw [hleave] at hkept
  exact hkept

theorem absorptions_build {h : Host κ σ} {d : Dialogue} {name : String}
    {state state' : Recorded κ σ} {answer : Except Fault View}
    (hbuild : (build h.recorded d name).result state = (answer, state')) :
    absorptions state'.2 = absorptions state.2 := by
  have hkept := (h.keeps_absorptions (· = absorptions state.2)).build d name rfl
  rw [hbuild] at hkept
  exact hkept

theorem absorptions_absorb {h : Host κ σ} {bindings : Bindings κ} {state state' : Recorded κ σ}
    {answer : Except Fault Unit}
    (habsorb : (h.recorded.absorb bindings).result state = (answer, state')) :
    absorptions state'.2 = absorptions state.2 ++ [(bindings, answer)] := by
  rw [result_recorded_absorb] at habsorb
  obtain ⟨rfl, rfl⟩ := Prod.mk.inj habsorb
  simp [absorptions]

/-- If nothing was absorbed before, an absorbing is the only one of the record. -/
theorem absorptions_absorb_once {h : Host κ σ} {bindings : Bindings κ}
    {state state' : Recorded κ σ} {answer : Except Fault Unit} (hbefore : absorptions state.2 = [])
    (habsorb : (h.recorded.absorb bindings).result state = (answer, state')) :
    absorptions state'.2 = [(bindings, answer)] := by
  rw [absorptions_absorb habsorb, hbefore]
  rfl

/-- The turn of a submission is the same with a record. -/
theorem leave_of_recorded {h : Host κ σ} {p : Playthrough} {view : View} {label : Label}
    {index : Nat} {state state' : Recorded κ σ} {answer : Except Fault (Playthrough.Transition κ)}
    (hleave : (leave h.recorded p view label index).result state = (answer, state')) :
    (leave h p view label index).result state.1 = (answer, state'.1) := by
  obtain ⟨hanswer, hstate⟩ :=
    h.recorded_simulation.leave p view label index state state.1 rfl
  rw [hleave] at hanswer hstate
  exact Prod.ext hanswer.eq.symm hstate.symm

end Host

namespace Game

/-- A record makes no difference to what is shown. -/
theorem At.of_recorded {game : Game σ} {view : View} {label : Label}
    (here : (game.recorded : Game (Recorded κ σ)).At view label) : game.At view label :=
  ⟨here.shown, here.declared⟩

/-- The bindings that the turn of a submission ends with: the after block of a label without
choices is run, or the condition of the choice picked, on the bindings that the host seeds. -/
inductive OwnTurn (h : Host κ σ) (index : Nat) (game : Game σ) : Bindings κ → Prop
  | block {view : View} {label : Label} {after : After} {bindings : Bindings κ} {s : σ}
      (here : game.At view label) (hchoices : label.choices = none)
      (hafter : label.after = some after)
      (hrun : (Turn.play h (Turn.executeBlock h after.code)).result game.host
        = (.ok ((), bindings), s)) : OwnTurn h index game bindings
  | condition {view : View} {label : Label} {choices : List Choice} {choice : Choice}
      {bindings : Bindings κ} {s : σ} (here : game.At view label)
      (hchoices : label.choices = some choices)
      (hpick : Playthrough.pick game.play.indexing view choices index = .ok choice)
      (hrun : (Playthrough.allowed h choice).result game.host = (.ok (true, bindings), s)) :
      OwnTurn h index game bindings

/-- The label shown has neither choices nor an after block. -/
def DeadEnd (game : Game σ) : Prop :=
  ∃ view label, game.At view label ∧ label.choices = none ∧ label.after = none

/-- The bindings for the host that a turn ends with. -/
def bindingsFor : Playthrough.Transition κ → Option (Bindings κ)
  | .enter _ bindings => some bindings
  | .finish bindings => bindings
  | .stay => none

/-- The bindings that a turn hands on are those it ended with. -/
theorem ownTurn_of_leave {h : Host κ σ} {index : Nat} {game : Game σ} {view : View} {label : Label}
    {transition : Playthrough.Transition κ} {bindings : Bindings κ} {s : σ}
    (here : game.At view label)
    (hleave : (leave h game.play view label index).result game.host = (.ok transition, s))
    (hbindings : bindingsFor transition = some bindings) : OwnTurn h index game bindings := by
  cases leaving hleave with
  | nothing hchoices hafter => cases hbindings
  | @block after ended s' hchoices hafter hrun =>
    have hended : ended = bindings := by
      cases htarget : after.target <;> rw [htarget] at hbindings <;> exact Option.some.inj hbindings
    rw [hended] at hrun
    exact .block here hchoices hafter hrun
  | @choice choices choice isOpen ended s' hchoices hpick hrun =>
    cases isOpen with
    | false => cases hbindings
    | true =>
      obtain rfl : ended = bindings := Option.some.inj hbindings
      exact .condition here hchoices hpick hrun

/-- Only a label without choices and after block is left without a turn. -/
theorem deadEnd_of_leave {h : Host κ σ} {index : Nat} {game : Game σ} {view : View} {label : Label}
    {s : σ} (here : game.At view label)
    (hleave : (leave h game.play view label index).result game.host = (.ok (.finish none), s)) :
    game.DeadEnd := by
  generalize htransition : Playthrough.Transition.finish none = transition at hleave
  cases leaving hleave with
  | nothing hchoices hafter => exact ⟨view, label, here, hchoices, hafter⟩
  | @block after ended s' hchoices hafter hrun =>
    cases htarget : after.target <;> rw [htarget] at htransition <;> cases htransition
  | @choice choices choice isOpen ended s' hchoices hpick hrun =>
    cases isOpen <;> cases htransition

/-- **Submitting a choice is a transaction, whatever the host.** A failed submission leaves the
playthrough as it was, and none of its absorbings succeeded. An ignored one absorbs nothing. Any
other absorbs exactly once, the bindings of its own turn, unless the label had no turn to run. Once
an absorbing has succeeded, so does the submission. -/
theorem submit_transaction (h : Host κ σ) (index : Nat) (game : Game σ) :
    ∃ answer after log,
      (submit h index).result game = (answer, after) ∧
      (submit h.recorded index).result game.recorded = (answer, ⟨after.play, (after.host, log)⟩) ∧
      (match answer with
        | .error _ =>
          after.play = game.play ∧ ∀ call ∈ absorptions log, ∃ fault, call.2 = .error fault
        | .ok .ignored => after.play = game.play ∧ absorptions log = []
        | .ok _ =>
          (∃ bindings, OwnTurn h index game bindings ∧ absorptions log = [(bindings, .ok ())]) ∨
            (game.DeadEnd ∧ absorptions log = [])) ∧
      ∀ call ∈ absorptions log, call.2 = .ok () → ∃ outcome, answer = .ok outcome := by
  obtain ⟨log, hrecorded⟩ := submit_recorded h index game
  rcases hsubmit : (submit h index).result game with ⟨answer, play, host⟩
  rw [hsubmit] at hrecorded
  refine ⟨answer, ⟨play, host⟩, log, rfl, hrecorded, ?_⟩
  -- the turn and the builds absorb nothing, so the record holds the one absorbing there may be
  have hsubmission := submission h.recorded index game.recorded
  rw [hrecorded] at hsubmission
  cases hsubmission with
  | ended hview => exact ⟨⟨rfl, by simp [absorptions]⟩, by simp [absorptions]⟩
  | lost hview hlabel => exact ⟨⟨rfl, by simp [absorptions]⟩, by simp [absorptions]⟩
  | refused here hleave =>
    have hlog : absorptions log = [] := Host.absorptions_leave hleave
    rw [hlog]
    exact ⟨⟨rfl, by simp⟩, by simp⟩
  | stayed here hleave =>
    have hlog : absorptions log = [] := Host.absorptions_leave hleave
    rw [hlog]
    exact ⟨⟨rfl, rfl⟩, by simp⟩
  | unbuilt here hleave hbuild =>
    have hlog : absorptions log = [] :=
      (Host.absorptions_build hbuild).trans (Host.absorptions_leave hleave)
    rw [hlog]
    exact ⟨⟨rfl, by simp⟩, by simp⟩
  | @unabsorbed view label target bindings staged fault s s' _ here hleave hbuild habsorb =>
    have hbefore : absorptions s'.2 = [] :=
      (Host.absorptions_build hbuild).trans (Host.absorptions_leave hleave)
    have hlog : absorptions log = [(bindings, .error fault)] :=
      Host.absorptions_absorb_once hbefore habsorb
    rw [hlog]
    exact ⟨⟨rfl, by simp⟩, by simp⟩
  | @entered view label target bindings staged again s s' s'' _ here hleave hbuild habsorb hrebuild =>
    have hbefore : absorptions s'.2 = [] :=
      (Host.absorptions_build hbuild).trans (Host.absorptions_leave hleave)
    have hlog : absorptions log = [(bindings, .ok ())] :=
      (Host.absorptions_build hrebuild).trans (Host.absorptions_absorb_once hbefore habsorb)
    have hturn := ownTurn_of_leave here.of_recorded (Host.leave_of_recorded hleave) rfl
    rw [hlog]
    exact ⟨Or.inl ⟨bindings, hturn, rfl⟩, by simp⟩
  | @closed view label s here hleave =>
    have hlog : absorptions log = [] := Host.absorptions_leave hleave
    have hdead := deadEnd_of_leave here.of_recorded (Host.leave_of_recorded hleave)
    rw [hlog]
    exact ⟨Or.inr ⟨hdead, rfl⟩, by simp⟩
  | @unfinished view label bindings fault s _ here hleave habsorb =>
    have hbefore : absorptions s.2 = [] := Host.absorptions_leave hleave
    have hlog : absorptions log = [(bindings, .error fault)] :=
      Host.absorptions_absorb_once hbefore habsorb
    rw [hlog]
    exact ⟨⟨rfl, by simp⟩, by simp⟩
  | @finished view label bindings s _ here hleave habsorb =>
    have hbefore : absorptions s.2 = [] := Host.absorptions_leave hleave
    have hlog : absorptions log = [(bindings, .ok ())] :=
      Host.absorptions_absorb_once hbefore habsorb
    have hturn := ownTurn_of_leave here.of_recorded (Host.leave_of_recorded hleave) rfl
    rw [hlog]
    exact ⟨Or.inl ⟨bindings, hturn, rfl⟩, by simp⟩

end Game

end Colloquy
