import Colloquy.Proofs.Sandbox.Fresh

/-!
# What leaves the pawn where it is

A condition may call `move`, rebind names and compute what it calls, and the pawn moves at once. But
a move gives none, nothing takes a none but an assignment, which hands it on, and a condition has to
end in a number: so a condition that ends well has not moved the pawn (`Host.Quiet.evaluateCondition`,
by `quiet`). All that building views and choosing among declared choices runs are conditions. Main
statement: `conditions_leave_pawn`. Over whole runs, `pawn_moved_by`: a pawn that is somewhere else
was moved by a failure or by a block after a label without choices.
-/

namespace Colloquy

variable {κ σ : Type} {h : Host κ σ}

/-! ## Building on a quiet host -/

namespace Host.Quiet

theorem begin (Q : h.Quiet) {d : Dialogue} {indexing : Indexing} {label : Option String} {s s' : σ}
    {play : Playthrough}
    (hbegin : (Playthrough.begin h d indexing label).result s = (.ok play, s')) : s' = s := by
  cases label with
  | none =>
    cases hbegin
    rfl
  | some name =>
    obtain ⟨view, s₁, hbuild, hend⟩ := Action.result_bind_eq_ok.mp hbegin
    cases hend
    exact (Q.build hbuild).1

theorem start (Q : h.Quiet) {d : Dialogue} {indexing : Indexing} {s s' : σ} {play : Playthrough}
    (hstart : (Playthrough.start h d indexing).result s = (.ok play, s')) : s' = s :=
  Q.begin hstart

theorem resume (Q : h.Quiet) {d : Dialogue} {snapshot : Snapshot} {s s' : σ} {play : Playthrough}
    (hresume : (Playthrough.resume h d snapshot).result s = (.ok play, s')) : s' = s := by
  obtain ⟨⟨⟩, s₁, hcheck, hbegin⟩ := Action.result_bind_eq_ok.mp hresume
  rw [Action.result_ofExcept] at hcheck
  obtain ⟨-, rfl⟩ := Prod.mk.inj hcheck
  exact Q.begin hbegin

theorem enter (Q : h.Quiet) {name : String} {game after : Game σ}
    (henter : (Game.enter h name).result game = (.ok (), after)) : after.host = game.host := by
  rcases hbuild : (Playthrough.build h game.play.dialogue name).result game.host with
    ⟨fault | view, s⟩
  · rw [Game.result_enter_of_error hbuild] at henter
    cases henter
  · rw [Game.result_enter_of_ok hbuild] at henter
    cases henter
    exact (Q.build hbuild).1

theorem refresh (Q : h.Quiet) {game after : Game σ}
    (hrefresh : (Game.refresh h).result game = (.ok (), after)) : after.host = game.host := by
  cases hview : game.play.view with
  | none =>
    rw [Game.result_refresh_of_over hview] at hrefresh
    cases hrefresh
  | some view =>
    rw [Game.result_refresh_of_view hview] at hrefresh
    exact Q.enter hrefresh

/-- Choosing among declared choices asks one condition. -/
theorem leave (Q : h.Quiet) {p : Playthrough} {view : View} {label : Label} {index : Nat} {s s' : σ}
    {transition : Playthrough.Transition κ} {choices : List Choice}
    (hchoices : label.choices = some choices)
    (hleave : (Playthrough.leave h p view label index).result s = (.ok transition, s')) :
    s' = s := by
  cases Playthrough.leaving hleave with
  | nothing => rfl
  | block hnone =>
    rw [hchoices] at hnone
    cases hnone
  | choice _ _ hallowed => exact (Q.allowed hallowed).1

end Host.Quiet

/-- The label shown declares choices of its own. -/
def Game.Choosing (game : Game σ) : Prop :=
  ∃ view label choices, game.At view label ∧ label.choices = some choices

namespace Sandbox

open Playthrough (build leave)

/-! ## Submissions -/

/-- A submission that goes well where choices are declared leaves the pawn where it was. -/
theorem pawn_of_submission {index : Nat} {game after : Game State} {outcome : Outcome}
    (hchoosing : game.Choosing)
    (hsubmission : Game.Submission host index game (.ok outcome, after)) :
    after.host.pawn = game.host.pawn := by
  obtain ⟨view, label, choices, here, hchoices⟩ := hchoosing
  cases hsubmission with
  | stayed here' hleave =>
    obtain ⟨rfl, rfl⟩ := here.unique here'
    exact congrArg State.pawn (quiet.leave hchoices hleave)
  | @entered _ _ target bindings staged answer s s' s'' s''' here' hleave hbuild habsorb hrebuild =>
    obtain ⟨rfl, rfl⟩ := here.unique here'
    -- the second build could have moved the pawn by failing, but it succeeds
    obtain ⟨view', hview'⟩ := rebuild_of_absorbed hbuild habsorb
    rw [hview'] at hrebuild
    cases hrebuild
    calc s''.pawn = s'.pawn := (names_of_absorbed habsorb).1
      _ = s.pawn := by rw [(quiet.build hbuild).1]
      _ = game.host.pawn := by rw [quiet.leave hchoices hleave]
  | closed here' hleave =>
    obtain ⟨rfl, rfl⟩ := here.unique here'
    exact congrArg State.pawn (quiet.leave hchoices hleave)
  | @finished _ _ bindings s s' here' hleave habsorb =>
    obtain ⟨rfl, rfl⟩ := here.unique here'
    calc s'.pawn = s.pawn := (names_of_absorbed habsorb).1
      _ = game.host.pawn := by rw [quiet.leave hchoices hleave]

theorem pawn_of_submit {index : Nat} {game after : Game State} {outcome : Outcome}
    (hchoosing : game.Choosing)
    (hsubmit : (Game.submit host index).result game = (.ok outcome, after)) :
    after.host.pawn = game.host.pawn := by
  have hsubmission := Game.submission host index game
  rw [hsubmit] at hsubmission
  exact pawn_of_submission hchoosing hsubmission

/-- **A condition that evaluates never moves the pawn.** Whatever names are bound to what, and so also
in the turn of any sandbox, whose variables may hide builtins, a condition with an answer has left the
sandbox alone. So has a start, a resumption, an entering of a label or a refresh that went well, and
a submission that went well leaves the pawn where it was if the label shown declares choices. -/
theorem conditions_leave_pawn :
    (∀ (condition : Expr) (holds : Bool) (state state' : TurnState Function State),
      (Turn.evaluateCondition host condition).result state = (.ok holds, state') →
        state'.host = state.host) ∧
    (∀ (condition : Expr) (holds : Bool) (bindings : Bindings Function) (s s' : State),
      (Turn.play host (Turn.evaluateCondition host condition)).result s
        = (.ok (holds, bindings), s') → s'.pawn = s.pawn) ∧
    (∀ (d : Dialogue) (indexing : Indexing) (play : Playthrough) (s s' : State),
      (Playthrough.start host d indexing).result s = (.ok play, s') → s'.pawn = s.pawn) ∧
    (∀ (d : Dialogue) (snapshot : Snapshot) (play : Playthrough) (s s' : State),
      (Playthrough.resume host d snapshot).result s = (.ok play, s') → s'.pawn = s.pawn) ∧
    ∀ (game after : Game State),
      (∀ name, (Game.enter host name).result game = (.ok (), after) →
        after.host.pawn = game.host.pawn) ∧
      ((Game.refresh host).result game = (.ok (), after) → after.host.pawn = game.host.pawn) ∧
      ∀ (index : Nat) (outcome : Outcome), game.Choosing →
        (Game.submit host index).result game = (.ok outcome, after) →
          after.host.pawn = game.host.pawn := by
  refine ⟨fun _ _ _ _ hrun => (quiet.evaluateCondition hrun).1, ?_, ?_, ?_, ?_⟩
  · intro condition holds bindings s s' hplay
    obtain ⟨seeded, -, hturn⟩ := Turn.play_eq_ok hplay
    exact congrArg State.pawn (quiet.evaluateCondition hturn).1
  · exact fun _ _ _ _ _ hstart => congrArg State.pawn (quiet.start hstart)
  · exact fun _ _ _ _ _ hresume => congrArg State.pawn (quiet.resume hresume)
  · intro game after
    exact ⟨fun _ henter => congrArg State.pawn (quiet.enter henter),
      fun hrefresh => congrArg State.pawn (quiet.refresh hrefresh),
      fun _ _ hchoosing hsubmit => pawn_of_submit hchoosing hsubmit⟩

/-- A condition that rebinds a variable hiding a builtin, and arriving and paying at a gate, in
sandboxes whose pawn is not at the origin. -/
theorem conditions_leave_pawn_toll :
    let condition : Expr := .list [.symbol ">", .list [.symbol "set*", .symbol "<", .number 3],
      .number 2]
    let pay : Expr := .list [.symbol "set*", .symbol "coins",
      .list [.symbol "-", .symbol "coins", .number 1]]
    let gate : Label := ⟨"gate", "The gate.", some [⟨"Pay", "gate", some pay⟩], none⟩
    let d : Dialogue := ⟨"gate", .ofList [("gate", gate)]⟩
    let s : State := ⟨⟨1, 2, 3⟩, .ofList [("coins", 2)]⟩
    let game : Game State := ⟨⟨d, .declared, some ⟨"gate", "The gate.", ["Pay"], [0]⟩⟩, s⟩
    (∃ bindings s', (Turn.play host (Turn.evaluateCondition host condition)).result
      ⟨⟨1, 2, 3⟩, .ofList [("<", 1)]⟩ = (.ok (true, bindings), s') ∧ s'.pawn = ⟨1, 2, 3⟩) ∧
    (∃ play s', (Playthrough.start host d .declared).result s = (.ok play, s') ∧
      s'.pawn = ⟨1, 2, 3⟩) ∧
    ∃ after, (Game.submit host 0).result game = (.ok (.entered "gate"), after) ∧
      after.host.pawn = ⟨1, 2, 3⟩ := by
  intro condition pay gate d s game
  obtain ⟨-, hturn, hstart, -, hgame⟩ := conditions_leave_pawn
  refine ⟨?_, ?_, ?_⟩
  · have hrun : (Turn.play host (Turn.evaluateCondition host condition)).result
        ⟨⟨1, 2, 3⟩, .ofList [("<", 1)]⟩ = (.ok (true, _), _) := rfl
    exact ⟨_, _, hrun, hturn _ _ _ _ _ hrun⟩
  · have hgood : ((Playthrough.start host d .declared).result s).1.isOk := by decide +kernel
    rcases hplay : (Playthrough.start host d .declared).result s with ⟨fault | play, s'⟩
    · rw [hplay] at hgood
      cases hgood
    · exact ⟨play, s', rfl, hstart _ _ _ _ _ hplay⟩
  · have hentered : ((Game.submit host 0).result game).1.toOption = some (.entered "gate") := by
      decide +kernel
    rcases hsubmit : (Game.submit host 0).result game with ⟨fault | outcome, after⟩ <;>
      rw [hsubmit] at hentered <;> cases hentered
    exact ⟨after, rfl, (hgame _ _).2.2 0 _ ⟨_, gate, _, ⟨rfl, rfl⟩, rfl⟩ hsubmit⟩

/-! ## Runs -/

/-- An operation that goes well, unless it leaves a label without choices, leaves the pawn where it
was. -/
theorem pawn_of_act {operation : Operation} {game after : Game State} {outcome : Option Outcome}
    (hchoosing : ∀ index, operation = .submit index → game.Choosing)
    (hact : (Game.act host operation).result game = (.ok outcome, after)) :
    after.host.pawn = game.host.pawn := by
  have hstep := Game.step host operation game
  rw [hact] at hstep
  generalize hanswer : (Except.ok outcome : Except Fault (Option Outcome)) = answer at hstep
  cases hstep with
  | @submitted index result _ hsubmission =>
    cases result with
    | error fault => cases hanswer
    | ok outcome => exact pawn_of_submission (hchoosing index rfl) hsubmission
  | refused => cases hanswer
  | unbuilt => cases hanswer
  | ended => rfl
  | shown hbuild => exact congrArg State.pawn (quiet.build hbuild).1

/-- An operation that may move the pawn: it fails, or leaves a label without choices. -/
def MayMove (operation : Operation) (game : Game State) : Prop :=
  (∃ fault, ((Game.act host operation).result game).1 = .error fault) ∨
    ∃ index, operation = .submit index ∧ ¬ game.Choosing

/-- A pawn that a run has moved was moved by a failure or after a label without choices. -/
theorem pawn_moved_by : ∀ (operations : List Operation) (game : Game State),
    (Game.run host operations game).host.pawn ≠ game.host.pawn →
      ∃ before operation after, operations = before ++ operation :: after ∧
        MayMove operation (Game.run host before game)
  | [], game, hmoved => absurd rfl hmoved
  | operation :: rest, game, hmoved => by
    by_cases hmay : MayMove operation game
    · exact ⟨[], operation, rest, rfl, hmay⟩
    · have hkept : ((Game.act host operation).result game).2.host.pawn = game.host.pawn := by
        rcases hact : (Game.act host operation).result game with ⟨fault | outcome, after⟩
        · exact absurd (.inl ⟨fault, by rw [hact]⟩) hmay
        · refine pawn_of_act (fun index hsubmit => ?_) hact
          by_contra hnone
          exact hmay (.inr ⟨index, hsubmit, hnone⟩)
      obtain ⟨before, mover, after, hsplit, hmover⟩ := pawn_moved_by rest
        ((Game.act host operation).result game).2 (by rw [hkept]; exact hmoved)
      exact ⟨operation :: before, mover, after, by rw [hsplit, List.cons_append], hmover⟩

end Sandbox

end Colloquy
