import Colloquy.Proofs.Dialogue.Grammar
import Colloquy.Proofs.Playthrough.Fresh
import Colloquy.Proofs.Sandbox.Kinds

/-!
# What is shown is never stale

A view is built when a label is entered and kept until the next one, through submissions that fail
or are ignored. Main statement: `view_never_stale`. In a sandbox nothing can be played that makes
the view differ from what would be shown now, so that refreshing it changes nothing.

The invariant is `Current`: the label shown is built again to the same view. Operations that fail
may move the pawn but not change variables, and views depend on the variables alone
(`build_of_vars`); a submission that changes variables builds the label after that, which succeeds
because it did before (`rebuild_of_absorbed`).
-/

namespace Colloquy.Sandbox

open Playthrough (build freshView)

/-! ## Building in a sandbox -/

/-- A move gives none, so code with another value has not moved the pawn. -/
theorem quiet : host.Quiet := by
  rintro ⟨⟩ args s s' v hcall hv
  have hmoved := moved args s
  rw [hcall] at hmoved
  cases hmoved with
  | shifted => exact absurd rfl hv

theorem keeps_vars (vars : NameMap Float) : host.Keeps fun s => s.vars = vars := by
  rintro ⟨⟩ args s hvars
  have hmoved := moved args s
  show ((host.call .move args).result s).2.vars = vars
  generalize (host.call .move args).result s = result at hmoved
  cases hmoved with
  | shifted => exact hvars
  | refused => exact hvars

/-- Sandboxes with equal variables play alike, wherever their pawns are. -/
theorem varsSimulation : Simulation (· = ·) (VarsRelated (· = ·)) host host :=
  simulation (fun _ => rfl) Builtin.apply_of_eq

/-- A label that is built is built to the same view wherever the variables are the same. -/
theorem build_of_vars {s s' t : State} {d : Dialogue} {name : String} {view : View}
    (hbuild : (build host d name).result s = (.ok view, s')) (hvars : s.vars = t.vars) :
    (build host d name).result t = (.ok view, t) := by
  rcases (varsSimulation.build d name).ok_or_error (varsRelated_of_eq hvars) with
    ⟨v, w, s₁, t₁, hs, ht, hview, -⟩ | ⟨fault, s₁, t₁, hs, -, -⟩
  · rw [hs] at hbuild
    cases hbuild
    rw [ht, ← hview Simulation.exact_eq, (quiet.build ht).1]
  · rw [hs] at hbuild
    cases hbuild

/-- A label that could be built before an absorbing can be built after it. -/
theorem rebuild_of_absorbed {d : Dialogue} {target : String} {bindings : Bindings Function}
    {staged : View} {s s' s'' : State} (hbuild : (build host d target).result s = (.ok staged, s'))
    (habsorb : (host.absorb bindings).result s' = (.ok (), s'')) :
    ∃ view, (build host d target).result s'' = (.ok view, s'') := by
  -- absorbing keeps the names of the variables, and whether a label is built goes by these
  have hnames : s''.vars.names = s.vars.names := by
    rw [(names_of_absorbed habsorb).2, (quiet.build hbuild).1]
  rcases build_of_names hnames.symm d target with ⟨v, w, s₁, t₁, -, ht⟩ | ⟨fault, s₁, t₁, hs, -⟩
  · refine ⟨w, ?_⟩
    rw [ht, (quiet.build ht).1]
  · rw [hs] at hbuild
    cases hbuild

/-! ## The invariant -/

/-- What is shown is what its label is built to now. -/
def Current (game : Game State) : Prop :=
  ∀ view, game.play.view = some view →
    (build host game.play.dialogue view.label).result game.host = (.ok view, game.host)

/-- A game that shows what it did, on the same variables, is as current as it was. -/
theorem Current.of_vars {game after : Game State} (hcurrent : Current game)
    (hplay : after.play = game.play) (hvars : after.host.vars = game.host.vars) :
    Current after := by
  intro view hview
  rw [hplay] at hview ⊢
  exact build_of_vars (hcurrent view hview) hvars.symm

theorem current_ended (d : Dialogue) (indexing : Indexing) (s : State) :
    Current ⟨⟨d, indexing, none⟩, s⟩ := by
  intro view hview
  cases hview

/-- A label that was just built is current. -/
theorem current_built {d : Dialogue} (hfiled : d.labels.FiledByName) {indexing : Indexing}
    {name : String} {view : View} {s s' : State}
    (hbuild : (build host d name).result s = (.ok view, s')) :
    Current ⟨⟨d, indexing, some view⟩, s'⟩ := by
  intro shown hshown
  obtain rfl : view = shown := Option.some.inj hshown
  obtain ⟨rfl, label, hlabel, hfresh⟩ := quiet.build hbuild
  have hname : view.label = name := by
    rw [hfresh, Playthrough.label_freshView]
    exact hfiled name label hlabel
  rw [hname]
  exact hbuild

section Step

variable {game after : Game State} (hfiled : game.play.dialogue.labels.FiledByName)
  (hcurrent : Current game)

include hfiled hcurrent

theorem current_submission {index : Nat} {outcome : Outcome}
    (hsubmission : Game.Submission host index game (.ok outcome, after)) :
    after.play.dialogue = game.play.dialogue ∧ Current after := by
  cases hsubmission with
  | @stayed view label s here hleave =>
    have hvars := (keeps_vars game.host.vars).leave game.play view label index rfl
    rw [hleave] at hvars
    exact ⟨rfl, hcurrent.of_vars rfl hvars⟩
  | entered here hleave hbuild habsorb hrebuild =>
    -- the view kept is that of the second build, on the variables of now
    obtain ⟨view, hview⟩ := rebuild_of_absorbed hbuild habsorb
    rw [hview] at hrebuild
    cases hrebuild
    exact ⟨rfl, current_built hfiled hview⟩
  | closed here hleave => exact ⟨rfl, current_ended _ _ _⟩
  | finished here hleave habsorb => exact ⟨rfl, current_ended _ _ _⟩

/-- No operation makes what is shown stale, whether it fails or not. -/
theorem current_act (operation : Operation) :
    ((Game.act host operation).result game).2.play.dialogue = game.play.dialogue ∧
      Current ((Game.act host operation).result game).2 := by
  rcases hact : (Game.act host operation).result game with ⟨fault | outcome, after⟩
  · -- the pawn may have moved, but what is shown does not depend on it
    obtain ⟨hplay, hvars⟩ := (keeps_vars game.host.vars).act_of_error
      (fun _ _ _ _ hkept hfail => by rw [eq_of_absorb_error hfail]; exact hkept) rfl hact
    exact ⟨by rw [hplay], hcurrent.of_vars hplay hvars⟩
  · have hstep := Game.step host operation game
    rw [hact] at hstep
    generalize hanswer : (Except.ok outcome : Except Fault (Option Outcome)) = answer at hstep
    cases hstep with
    | @submitted index result _ hsubmission =>
      cases result with
      | error fault => cases hanswer
      | ok outcome => exact current_submission hfiled hcurrent hsubmission
    | refused => cases hanswer
    | unbuilt => cases hanswer
    | ended => exact ⟨rfl, current_ended _ _ _⟩
    | shown hbuild => exact ⟨rfl, current_built hfiled hbuild⟩

end Step

/-- A run from a current game keeps the dialogue, and what is shown stays current. -/
theorem Current.run {game : Game State} (hfiled : game.play.dialogue.labels.FiledByName)
    (hcurrent : Current game) (operations : List Operation) :
    (Game.run host operations game).play.dialogue = game.play.dialogue ∧
      Current (Game.run host operations game) := by
  refine Game.run_induction
    (P := fun after => after.play.dialogue = game.play.dialogue ∧ Current after) ?_ operations
    ⟨rfl, hcurrent⟩
  rintro operation before ⟨hsame, hbefore⟩
  rw [← hsame] at hfiled ⊢
  exact current_act hfiled hbefore operation

/-- After any run from the start, the dialogue is the same and what is shown is current. -/
theorem current_run {d : Dialogue} (hfiled : d.labels.FiledByName) (indexing : Indexing) (s : State)
    (operations : List Operation) :
    (Game.run host operations ⟨⟨d, indexing, none⟩, s⟩).play.dialogue = d ∧
      Current (Game.run host operations ⟨⟨d, indexing, none⟩, s⟩) :=
  Current.run hfiled (current_ended d indexing s) operations

/-- **The displayed choices are never stale.** After any run of operations on a compiled dialogue,
what is shown is a declared label's view as it ought to be on the variables of now, and refreshing
it succeeds and changes nothing. A label that was built before an absorbing is built after it, so
the first view of it is never kept. -/
theorem view_never_stale {forms : List Expr} {d : Dialogue} (hcompiled : compileForms forms = .ok d)
    (indexing : Indexing) (s : State) (operations : List Operation) :
    let game := Game.run host operations ⟨⟨d, indexing, none⟩, s⟩
    (∀ view, game.play.view = some view →
      (∃ label, d.label? view.label = some label ∧ view = freshView host game.host label) ∧
        (Game.refresh host).result game = (.ok (), game)) ∧
    ∀ (target : String) (bindings : Bindings Function) (staged : View) (s₀ s₁ s₂ : State),
      (build host d target).result s₀ = (.ok staged, s₁) →
      (host.absorb bindings).result s₁ = (.ok (), s₂) →
      ∃ view, (build host d target).result s₂ = (.ok view, s₂) := by
  intro game
  obtain ⟨hdialogue, hcurrent⟩ :=
    current_run (compileForms_filedByName hcompiled) indexing s operations
  refine ⟨fun view hview => ⟨?_, ?_⟩, fun _ _ _ _ _ _ hbuild => rebuild_of_absorbed hbuild⟩
  · obtain ⟨-, label, hlabel, hfresh⟩ := quiet.build (hcurrent view hview)
    rw [hdialogue] at hlabel
    exact ⟨label, hlabel, hfresh⟩
  · have hsame : ({ game.play with view := some view } : Playthrough) = game.play := by
      rw [← hview]
    rw [Game.result_refresh_of_view hview, Game.result_enter_of_ok (hcurrent view hview), hsame]

/-- A gate that takes one coin and can be passed as long as another is left. -/
def tollForms : List Expr := [
  .list [.symbol "label", .symbol "gate", .list [.symbol "text", .text "The gate."],
    .list [.symbol "choice", .text "Pay", .symbol "gate",
      .list [.symbol "set*", .symbol "coins", .list [.symbol "-", .symbol "coins", .number 1]]],
    .list [.symbol "choice", .text "Wait", .symbol "gate"]],
  .list [.symbol "start-dialogue", .symbol "gate"]]

/-- Two coins pay for passing once. After that the gate only offers to wait. -/
theorem view_never_stale_toll :
    ∃ d, compileForms tollForms = .ok d ∧
      let game := Game.run host [.start .declared, .submit 0]
        ⟨⟨d, .declared, none⟩, ⟨.origin, .ofList [("coins", 2)]⟩⟩
      game.play.view = some ⟨"gate", "The gate.", ["Wait"], [1]⟩ ∧
        (Game.refresh host).result game = (.ok (), game) := by
  have hcompiled : compileForms tollForms = .ok ⟨"gate", .ofList [("gate", ⟨"gate", "The gate.",
      some [⟨"Pay", "gate", some (.list [.symbol "set*", .symbol "coins",
        .list [.symbol "-", .symbol "coins", .number 1]])⟩, ⟨"Wait", "gate", none⟩], none⟩)]⟩ := rfl
  refine ⟨_, hcompiled, ?_⟩
  intro game
  have hview : game.play.view = some ⟨"gate", "The gate.", ["Wait"], [1]⟩ := by decide
  obtain ⟨hviews, -⟩ := view_never_stale hcompiled .declared ⟨.origin, .ofList [("coins", 2)]⟩
    [.start .declared, .submit 0]
  exact ⟨hview, (hviews _ hview).2⟩

end Colloquy.Sandbox
