import Colloquy.Proofs.Evaluation.Simulation
import Colloquy.Proofs.Playthrough.Coupling

/-!
# Comparing two runs of a game

Carries a `Simulation` of two hosts from code to views and from there to operations. Building a
label fails alike on both hosts, and gives the same view where numbers are told apart
(`Simulation.build`). If the hosts moreover absorb alike, every operation gives the same answer on
both (`Simulation.act`).

A simulation of a host by itself, between equal states in which something holds, says what code
cannot break: `Host.Keeps I` asks that no function of the host breaks `I`, and then no building of
a label and no turn does (`Host.Keeps.build`, `Host.Keeps.leave`). Main statement about failures,
`Host.Keeps.act_of_error`: an operation that fails breaks nothing that neither the functions of
the host nor a failing `absorb` can break, and leaves the player where they were.
-/

namespace Colloquy

open Colloquy.Action (InStep)

variable {κ σ τ : Type}

/-- The playthroughs are the same and the hosts are related by `S`. -/
structure Game.Related (S : σ → τ → Prop) (a : Game σ) (b : Game τ) : Prop where
  play : a.play = b.play
  host : S a.host b.host

namespace Simulation

variable {N : Float → Float → Prop} {S : σ → τ → Prop} {h : Host κ σ} {k : Host κ τ}

theorem allowed (H : Simulation N S h k) (choice : Choice) :
    InStep S (fun x y => (Exact N → x.1 = y.1) ∧ NameMap.Related (Value.Related N) x.2 y.2)
      (Playthrough.allowed h choice) (Playthrough.allowed k choice) := by
  refine H.play (R := fun x y => Exact N → x = y) ?_
  cases choice.condition with
  | none => exact .pure fun _ => rfl
  | some condition => exact H.evaluateCondition condition

theorem openChoices (H : Simulation N S h k) :
    ∀ (choices : List Choice) (place : Nat), InStep S (fun xs ys => Exact N → xs = ys)
      (Playthrough.openChoices h place choices) (Playthrough.openChoices k place choices)
  | [], _ => .pure fun _ => rfl
  | choice :: rest, place => by
    refine (H.allowed choice).bind fun x y hopen => ?_
    refine (openChoices H rest (place + 1)).bind fun xs ys hothers => ?_
    exact .pure fun hN => by rw [hopen.1 hN, hothers hN]

theorem viewOf (H : Simulation N S h k) (label : Label) :
    InStep S (fun v w => Exact N → v = w) (Playthrough.viewOf h label)
      (Playthrough.viewOf k label) := by
  unfold Playthrough.viewOf
  cases label.choices with
  | none => exact .pure fun _ => rfl
  | some choices =>
    refine (H.openChoices choices 0).bind fun xs ys hshown => ?_
    exact .pure fun hN => by rw [hshown hN]

/-- Building a label fails alike on both hosts, and gives one view where numbers are exact. -/
theorem build (H : Simulation N S h k) (d : Dialogue) (name : String) :
    InStep S (fun v w => Exact N → v = w) (Playthrough.build h d name)
      (Playthrough.build k d name) := by
  refine (InStep.ofExcept (Agree.refl (R := (· = ·)) (fun _ => rfl) _)).bind fun label _ hlabel => ?_
  rw [← hlabel]
  exact H.viewOf label

theorem begin (H : Simulation N S h k) (d : Dialogue) (indexing : Indexing)
    (label : Option String) :
    InStep S (fun p q => Exact N → p = q) (Playthrough.begin h d indexing label)
      (Playthrough.begin k d indexing label) := by
  cases label with
  | none => exact .pure fun _ => rfl
  | some name =>
    refine (H.build d name).bind fun v w hview => ?_
    exact .pure fun hN => by rw [hview hN]

theorem resume (H : Simulation N S h k) (d : Dialogue) (snapshot : Snapshot) :
    InStep S (fun p q => Exact N → p = q) (Playthrough.resume h d snapshot)
      (Playthrough.resume k d snapshot) := by
  refine (InStep.ofExcept (Agree.refl (R := fun _ _ => True) (fun _ => trivial) _)).bind
    fun _ _ _ => ?_
  exact H.begin d snapshot.indexing snapshot.label

/-! ## Hosts compared number for number -/

section Exact

theorem exact_eq : Exact (· = ·) := fun _ _ h => h

theorem bindings_eq {b c : Bindings κ}
    (related : NameMap.Related (Value.Related (· = ·)) b c) : b = c := by
  refine NameMap.Related.eq fun name => ?_
  have hname := related name
  generalize b.find? name = v at hname
  generalize c.find? name = w at hname
  cases hname with
  | some hvalue => exact .some hvalue.eq
  | none => exact .none

theorem continueFrom (H : Simulation (· = ·) S h k) (label : Label) (index : Nat) :
    InStep S (· = ·) (Playthrough.continueFrom h label index)
      (Playthrough.continueFrom k label index) := by
  unfold Playthrough.continueFrom
  split
  · exact .throw _
  · cases label.after with
    | none => exact .pure rfl
    | some after =>
      refine (H.play (H.executeBlock after.code)).bind ?_
      rintro ⟨⟨⟩, bindings⟩ ⟨⟨⟩, bindings'⟩ related
      obtain rfl := bindings_eq related.2
      exact .pure rfl

theorem choose (H : Simulation (· = ·) S h k) (indexing : Indexing) (view : View)
    (choices : List Choice) (index : Nat) :
    InStep S (· = ·) (Playthrough.choose h indexing view choices index)
      (Playthrough.choose k indexing view choices index) := by
  refine (InStep.ofExcept (Agree.refl (R := (· = ·)) (fun _ => rfl) _)).bind
    fun choice _ hchoice => ?_
  rw [← hchoice]
  refine (H.allowed choice).bind ?_
  rintro ⟨isOpen, bindings⟩ ⟨isOpen', bindings'⟩ related
  obtain rfl : isOpen = isOpen' := related.1 exact_eq
  obtain rfl := bindings_eq related.2
  exact .pure rfl

theorem leave (H : Simulation (· = ·) S h k) (p : Playthrough) (view : View) (label : Label)
    (index : Nat) :
    InStep S (· = ·) (Playthrough.leave h p view label index)
      (Playthrough.leave k p view label index) := by
  unfold Playthrough.leave
  cases label.choices with
  | none => exact H.continueFrom label index
  | some choices => exact H.choose p.indexing view choices index

theorem coupling : Game.Coupling S (Game.Related S) where
  view related := by rw [related.play]
  host related := related.host
  played related hS := ⟨related.play, hS⟩
  shown related view := ⟨by rw [related.play], related.host⟩

theorem build_related (H : Simulation (· = ·) S h k) {a : Game σ} {b : Game τ}
    (related : Game.Related S a b) (name : String) :
    InStep S (· = ·) (Playthrough.build h a.play.dialogue name)
      (Playthrough.build k b.play.dialogue name) := by
  rw [related.play]
  exact (H.build b.play.dialogue name).mono fun _ _ hview => hview exact_eq

theorem submit (H : Simulation (· = ·) S h k)
    (habsorb : ∀ bindings, InStep S (fun _ _ => True) (h.absorb bindings) (k.absorb bindings))
    (index : Nat) :
    InStep (Game.Related S) (· = ·) (Game.submit h index) (Game.submit k index) := by
  refine coupling.submit H.build_related habsorb fun {a b} related view => ?_
  rw [related.play]
  refine Agree.refl (fun label => ?_) _
  exact H.leave b.play view label index

/-- On hosts that also absorb alike, every operation gives the same answer. -/
theorem act (H : Simulation (· = ·) S h k)
    (habsorb : ∀ bindings, InStep S (fun _ _ => True) (h.absorb bindings) (k.absorb bindings))
    (operation : Operation) :
    InStep (Game.Related S) (· = ·) (Game.act h operation) (Game.act k operation) := by
  have hplay : ∀ {a : Game σ} {b : Game τ} {p q : Playthrough}, Game.Related S a b →
      (Exact (· = ·) → p = q) → Game.Related S { a with play := p } { b with play := q } :=
    fun related hpq => ⟨hpq exact_eq, related.host⟩
  cases operation with
  | start indexing =>
    refine (coupling.replace (fun related => ?_) hplay).bind fun _ _ _ => .pure rfl
    rw [related.play]
    exact H.begin _ indexing _
  | resume snapshot =>
    refine (coupling.replace (fun related => ?_) hplay).bind fun _ _ _ => .pure rfl
    rw [related.play]
    exact H.resume _ snapshot
  | enter label => exact (coupling.enter H.build_related label).bind fun _ _ _ => .pure rfl
  | refresh => exact (coupling.refresh H.build_related).bind fun _ _ _ => .pure rfl
  | submit index =>
    exact (H.submit habsorb index).bind fun _ _ houtcome => .pure (by rw [houtcome])

end Exact

end Simulation

/-! ## What code cannot break -/

namespace Host

/-- No function of the host breaks `I`. -/
def Keeps (h : Host κ σ) (I : σ → Prop) : Prop :=
  ∀ (f : κ) (args : List (Value κ)) (s : σ), I s → I ((h.call f args).result s).2

namespace Keeps

variable {h : Host κ σ} {I : σ → Prop}

/-- A host is in step with itself between equal states in which `I` holds. -/
theorem simulation (H : h.Keeps I) : Simulation (· = ·) (fun s t => s = t ∧ I s) h h where
  literal _ := rfl
  builtin := Builtin.apply_of_eq
  signature _ := rfl
  call f xs ys hargs := by
    rintro s t ⟨hst, hI⟩
    rw [Value.eq_of_forall₂ hargs, ← hst]
    exact ⟨Agree.refl (Value.Related.refl fun _ => rfl) _, rfl, H f ys s hI⟩
  seed := by
    rintro s t ⟨hst, -⟩
    rw [hst]
    exact Agree.refl (NameMap.Related.refl (Value.Related.refl fun _ => rfl)) _

theorem build (H : h.Keeps I) (d : Dialogue) (name : String) {s : σ} (hI : I s) :
    I ((Playthrough.build h d name).result s).2 :=
  ((H.simulation.build d name) s s ⟨rfl, hI⟩).2.2

theorem leave (H : h.Keeps I) (p : Playthrough) (view : View) (label : Label) (index : Nat) {s : σ}
    (hI : I s) : I ((Playthrough.leave h p view label index).result s).2 :=
  ((H.simulation.leave p view label index) s s ⟨rfl, hI⟩).2.2

/-- A submission that fails leaves the player where they were and breaks nothing that neither the
functions of the host nor a failing `absorb` can break. -/
theorem submission_of_error (H : h.Keeps I)
    (habsorb : ∀ bindings s fault s', I s → (h.absorb bindings).result s = (.error fault, s') → I s')
    {index : Nat} {game after : Game σ} {fault : Fault} (hI : I game.host)
    (hsubmission : Game.Submission h index game (.error fault, after)) :
    after.play = game.play ∧ I after.host := by
  -- `I` is carried through the host's states in turn: after the turn, the build, the absorbing
  cases hsubmission with
  | ended hview => exact ⟨rfl, hI⟩
  | lost hview hlabel => exact ⟨rfl, hI⟩
  | @refused view label _ s here hleave =>
    have hs := H.leave game.play view label index hI
    rw [hleave] at hs
    exact ⟨rfl, hs⟩
  | @unbuilt view label target bindings _ s s' here hleave hbuild =>
    have hs := H.leave game.play view label index hI
    rw [hleave] at hs
    have hs' := H.build game.play.dialogue target hs
    rw [hbuild] at hs'
    exact ⟨rfl, hs'⟩
  | @unabsorbed view label target bindings staged _ s s' s'' here hleave hbuild hfail =>
    have hs := H.leave game.play view label index hI
    rw [hleave] at hs
    have hs' := H.build game.play.dialogue target hs
    rw [hbuild] at hs'
    exact ⟨rfl, habsorb _ _ _ _ hs' hfail⟩
  | @unfinished view label bindings _ s s' here hleave hfail =>
    have hs := H.leave game.play view label index hI
    rw [hleave] at hs
    exact ⟨rfl, habsorb _ _ _ _ hs hfail⟩

/-- `submission_of_error` for every operation. -/
theorem act_of_error (H : h.Keeps I)
    (habsorb : ∀ bindings s fault s', I s → (h.absorb bindings).result s = (.error fault, s') → I s')
    {operation : Operation} {game after : Game σ} {fault : Fault} (hI : I game.host)
    (hfail : (Game.act h operation).result game = (.error fault, after)) :
    after.play = game.play ∧ I after.host := by
  have hstep := Game.step h operation game
  rw [hfail] at hstep
  generalize hanswer : (Except.error fault : Except Fault (Option Outcome)) = answer at hstep
  cases hstep with
  | @submitted index outcome _ hsubmission =>
    cases outcome with
    | error cause => exact H.submission_of_error habsorb hI hsubmission
    | ok outcome => cases hanswer
  | refused => exact ⟨rfl, hI⟩
  | @unbuilt _ name _ s hbuild =>
    have hs := H.build game.play.dialogue name hI
    rw [hbuild] at hs
    exact ⟨rfl, hs⟩
  | ended => cases hanswer
  | shown hbuild => cases hanswer

end Keeps

end Host

end Colloquy
