import Colloquy.Proofs.Playthrough.Operation

/-!
# Coupled games

Two games can be compared while they show the same: what one of them does the other does too, as
long as their labels build and leave in step and their hosts absorb in step. Which games are
compared is up to a relation `G`, of which `Game.Coupling` asks that it says what is shown, relates
the hosts, and is kept when both games go on alike. Main statements: `Coupling.refresh`,
`Coupling.replace` and `Coupling.submit`, the operations of coupled games.
-/

namespace Colloquy

open Colloquy.Action (InStep)

variable {κ σ τ α β : Type}

theorem Playthrough.commit_inStep {S : σ → τ → Prop} {h : Host κ σ} {k : Host κ τ} {d e : Dialogue}
    {target : String} {bindings : Bindings κ} {R : Unit → Unit → Prop}
    (hbuild : InStep S (· = ·) (build h d target) (build k e target))
    (habsorb : InStep S R (h.absorb bindings) (k.absorb bindings)) :
    InStep S (· = ·) (commit h d target bindings) (commit k e target bindings) := by
  refine hbuild.bind fun staged staged' hstaged => ?_
  rw [hstaged]
  refine habsorb.bind fun _ _ _ => ?_
  refine hbuild.attempt.bind fun r r' hrebuilt => ?_
  -- both keep the first view or both show the second
  cases hrebuilt with
  | ok hview => exact .pure hview
  | error fault => exact .pure rfl

namespace Game

open Playthrough (resolve build leave)

/-- Games related by `G` show the same and are played on hosts related by `S`, and stay related by
`G` when their hosts go on to related states and when both show another view. -/
structure Coupling (S : σ → τ → Prop) (G : Game σ → Game τ → Prop) : Prop where
  view : ∀ {a b}, G a b → a.play.view = b.play.view
  host : ∀ {a b}, G a b → S a.host b.host
  played : ∀ {a b s t}, G a b → S s t → G { a with host := s } { b with host := t }
  shown : ∀ {a b}, G a b → ∀ view,
    G { a with play := { a.play with view } } { b with play := { b.play with view } }

namespace Coupling

variable {S : σ → τ → Prop} {G : Game σ → Game τ → Prop} {h : Host κ σ} {k : Host κ τ}

theorem onHost (C : Coupling S G) {R : α → β → Prop} {x : Action σ α} {y : Action τ β}
    (hxy : InStep S R x y) : InStep G R (Game.onHost x) (Game.onHost y) :=
  hxy.within (fun _ _ => C.host) fun _ _ _ _ => C.played

theorem display (C : Coupling S G) (view : Option View) :
    InStep G (· = ·) (Game.display view) (Game.display view) :=
  fun _ _ related => ⟨.ok rfl, C.shown related view⟩

theorem currentView (C : Coupling S G) : InStep G (· = ·) Game.currentView Game.currentView := by
  intro a b related
  rw [result_currentView, result_currentView, C.view related]
  exact ⟨Agree.refl (fun _ => rfl) _, related⟩

/-- Another playthrough is put in the place of the present one. -/
theorem replace (C : Coupling S G) {next : Dialogue → Action σ Playthrough}
    {next' : Dialogue → Action τ Playthrough} {R : Playthrough → Playthrough → Prop}
    (hnext : ∀ {a b}, G a b → InStep S R (next a.play.dialogue) (next' b.play.dialogue))
    (hplay : ∀ {a b p q}, G a b → R p q → G { a with play := p } { b with play := q }) :
    InStep G (· = ·) (Game.replace next) (Game.replace next') := by
  refine InStep.get.bind fun a b related => ?_
  refine (C.onHost (hnext related)).bind fun p q hpq => ?_
  exact fun a b related => ⟨.ok rfl, hplay related hpq⟩

theorem follow (C : Coupling S G) {R : Unit → Unit → Prop} {d e : Dialogue}
    (hbuild : ∀ name, InStep S (· = ·) (build h d name) (build k e name))
    (habsorb : ∀ bindings, InStep S R (h.absorb bindings) (k.absorb bindings)) :
    ∀ transition, InStep G (· = ·) (Game.follow h d transition) (Game.follow k e transition)
  | .enter target bindings => by
    have hcommit := Playthrough.commit_inStep (hbuild target) (habsorb bindings)
    refine (C.onHost hcommit).bind fun view view' hview => ?_
    rw [hview]
    exact (C.display _).bind fun _ _ _ => .pure rfl
  | .finish none => (C.display _).bind fun _ _ _ => .pure rfl
  | .finish (some bindings) =>
    (C.onHost (habsorb bindings)).bind fun _ _ _ => (C.display _).bind fun _ _ _ => .pure rfl
  | .stay => .pure rfl

section Labels

variable (hbuild : ∀ {a b}, G a b → ∀ name,
  InStep S (· = ·) (build h a.play.dialogue name) (build k b.play.dialogue name))

include hbuild

theorem enter (C : Coupling S G) (name : String) :
    InStep G (· = ·) (Game.enter h name) (Game.enter k name) := by
  refine InStep.get.bind fun a b related => ?_
  refine (C.onHost (hbuild related name)).bind fun view view' hview => ?_
  rw [hview]
  exact C.display _

theorem refresh (C : Coupling S G) : InStep G (· = ·) (Game.refresh h) (Game.refresh k) := by
  refine C.currentView.bind fun view view' hview => ?_
  rw [hview]
  exact C.enter hbuild view'.label

/-- The labels that are left may differ, as long as they are left in step. -/
theorem submit (C : Coupling S G) {R : Unit → Unit → Prop}
    (habsorb : ∀ bindings, InStep S R (h.absorb bindings) (k.absorb bindings)) {index : Nat}
    (hleave : ∀ {a b}, G a b → ∀ view, Agree
      (fun l m => InStep S (· = ·) (leave h a.play view l index) (leave k b.play view m index))
      (resolve a.play.dialogue view.label) (resolve b.play.dialogue view.label)) :
    InStep G (· = ·) (Game.submit h index) (Game.submit k index) := by
  refine C.currentView.bind fun view view' hview => ?_
  rw [hview]
  refine InStep.get.bind fun a b related => ?_
  refine (InStep.ofExcept (hleave related view')).bind fun label label' hleft => ?_
  refine (C.onHost hleft).bind fun transition transition' htransition => ?_
  rw [htransition]
  exact C.follow (hbuild related) habsorb transition'

end Labels

end Coupling

end Game

end Colloquy
