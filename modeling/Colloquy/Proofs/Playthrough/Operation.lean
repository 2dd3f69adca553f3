import Colloquy.Playthrough
import Colloquy.Proofs.Action

/-!
# Operations on a game

What can be done to a game, as data: to start it anew, to come back to a snapshot, to go to a
label, to refresh the view and to submit a choice (`Operation`). A run is a list of operations, each
done whether or not the ones before it failed (`Game.run`).

`Submission` lists every way in which a submission can go, with the state it leaves: `submission`
says that each submission goes in one of them, so that what holds of submissions is proved by
cases on it.
-/

namespace Colloquy

variable {κ σ : Type}

/-- Something that is done to a game. -/
inductive Operation
  | start (indexing : Indexing)
  | resume (snapshot : Snapshot)
  | enter (label : String)
  | refresh
  | submit (index : Nat)

namespace Game

/-- Puts another playthrough of the same dialogue in the place of the present one. -/
def replace (next : Dialogue → Action σ Playthrough) : Action (Game σ) Unit := do
  let dialogue := (← get).play.dialogue
  let play ← onHost (next dialogue)
  modify fun game => { game with play }

/-- Does an operation; only a submission has an outcome to tell. -/
def act (h : Host κ σ) : Operation → Action (Game σ) (Option Outcome)
  | .start indexing => do
    replace fun d => Playthrough.start h d indexing
    pure none
  | .resume snapshot => do
    replace fun d => Playthrough.resume h d snapshot
    pure none
  | .enter label => do
    enter h label
    pure none
  | .refresh => do
    refresh h
    pure none
  | .submit index => do
    let outcome ← submit h index
    pure (some outcome)

/-- The game after a list of operations, each of which may have failed. -/
def run (h : Host κ σ) (operations : List Operation) (game : Game σ) : Game σ :=
  operations.foldl (fun game operation => ((act h operation).result game).2) game

/-- What holds of a game and is kept by every operation holds after every run. -/
theorem run_induction {h : Host κ σ} {P : Game σ → Prop}
    (step : ∀ operation game, P game → P ((act h operation).result game).2)
    (operations : List Operation) {game : Game σ} (start : P game) :
    P (run h operations game) := by
  induction operations generalizing game with
  | nil => exact start
  | cons operation rest ih => exact ih (step operation game start)

@[simp] theorem result_onHost {α : Type} (a : Action σ α) (game : Game σ) :
    (onHost a).result game = ((a.result game.host).1, { game with host := (a.result game.host).2 }) :=
  rfl

end Game

namespace Playthrough

/-- The turn that a submission runs at a label. -/
def leave (h : Host κ σ) (p : Playthrough) (view : View) (label : Label) (index : Nat) :
    Action σ (Transition κ) :=
  match label.choices with
  | none => continueFrom h label index
  | some choices => choose h p.indexing view choices index

/-- The ways in which a turn can end without a fault: where it leads and the state of the host that
it leaves. -/
inductive Leaving (h : Host κ σ) (p : Playthrough) (view : View) (label : Label) (index : Nat)
    (s : σ) : Transition κ × σ → Prop
  | nothing (hchoices : label.choices = none) (hafter : label.after = none) :
      Leaving h p view label index s (.finish none, s)
  | block {after : After} {bindings : Bindings κ} {s' : σ} (hchoices : label.choices = none)
      (hafter : label.after = some after)
      (hrun : (Turn.play h (Turn.executeBlock h after.code)).result s = (.ok ((), bindings), s')) :
      Leaving h p view label index s
        (match after.target with
          | some target => .enter target bindings
          | none => .finish (some bindings), s')
  | choice {choices : List Choice} {choice : Choice} {isOpen : Bool} {bindings : Bindings κ}
      {s' : σ} (hchoices : label.choices = some choices)
      (hpick : pick p.indexing view choices index = .ok choice)
      (hrun : (allowed h choice).result s = (.ok (isOpen, bindings), s')) :
      Leaving h p view label index s
        (if isOpen then .enter choice.target bindings else .stay, s')

theorem leaving {h : Host κ σ} {p : Playthrough} {view : View} {label : Label} {index : Nat}
    {s s' : σ} {transition : Transition κ}
    (hleave : (leave h p view label index).result s = (.ok transition, s')) :
    Leaving h p view label index s (transition, s') := by
  unfold leave at hleave
  cases hchoices : label.choices with
  | none =>
    rw [hchoices] at hleave
    simp only [continueFrom] at hleave
    split at hleave
    · simp at hleave
    · cases hafter : label.after with
      | none =>
        rw [hafter] at hleave
        obtain ⟨rfl, rfl⟩ : Transition.finish none = transition ∧ s = s' := by simpa using hleave
        exact .nothing hchoices hafter
      | some after =>
        rw [hafter] at hleave
        obtain ⟨⟨⟨⟩, bindings⟩, s'', hrun, hend⟩ := Action.result_bind_eq_ok.mp hleave
        cases hend
        exact .block hchoices hafter hrun
  | some choices =>
    rw [hchoices] at hleave
    obtain ⟨choice, s'', hpick, hrest⟩ := Action.result_bind_eq_ok.mp hleave
    rw [Action.result_ofExcept] at hpick
    obtain ⟨hpicked, rfl⟩ := Prod.mk.inj hpick
    obtain ⟨⟨isOpen, bindings⟩, s''', hrun, hend⟩ := Action.result_bind_eq_ok.mp hrest
    cases hend
    exact .choice hchoices hpicked hrun

/-- Only declared choices are picked. -/
theorem mem_of_pick {indexing : Indexing} {view : View} {choices : List Choice} {index : Nat}
    {choice : Choice} (h : pick indexing view choices index = .ok choice) : choice ∈ choices := by
  have hplaced : ∃ place : Nat, choices[place]? = some choice := by
    unfold pick at h
    cases indexing with
    | declared =>
      dsimp only at h
      split at h
      · next hfound => exact ⟨index, hfound.trans (congrArg some (Except.ok.inj h))⟩
      · cases h
    | visible =>
      dsimp only at h
      split at h
      · next place _ =>
        split at h
        · next hfound => exact ⟨place, hfound.trans (congrArg some (Except.ok.inj h))⟩
        · cases h
      · cases h
  obtain ⟨place, hfound⟩ := hplaced
  exact List.mem_of_getElem? hfound

/-- An accepted snapshot goes on like a start, at its own label. -/
theorem resume_of_accepted {h : Host κ σ} {d : Dialogue} {snapshot : Snapshot}
    (hcheck : checkSnapshot d snapshot = .ok ()) (s : σ) :
    (resume h d snapshot).result s = (begin h d snapshot.indexing snapshot.label).result s := by
  unfold resume
  rw [Action.result_bind_of_ok (by rw [hcheck]; exact Action.result_ofExcept _ _)]

/-- The view that is kept of a label built for the second time. -/
def kept (staged : View) : Except Fault View → View
  | .ok view => view
  | .error _ => staged

section Commit

variable {h : Host κ σ} {d : Dialogue} {target : String} {bindings : Bindings κ} {staged : View}
  {fault : Fault} {s s' s'' s''' : σ}

theorem commit_of_unbuilt (hbuild : (build h d target).result s = (.error fault, s')) :
    (commit h d target bindings).result s = (.error fault, s') := by
  unfold commit
  rw [Action.result_bind_of_error hbuild]

theorem commit_of_unabsorbed (hbuild : (build h d target).result s = (.ok staged, s'))
    (habsorb : (h.absorb bindings).result s' = (.error fault, s'')) :
    (commit h d target bindings).result s = (.error fault, s'') := by
  unfold commit
  rw [Action.result_bind_of_ok hbuild, Action.result_bind_of_error habsorb]

/-- Once the host has absorbed, going to a label succeeds whatever the second build gives. -/
theorem commit_of_absorbed (hbuild : (build h d target).result s = (.ok staged, s'))
    (habsorb : (h.absorb bindings).result s' = (.ok (), s'')) {answer : Except Fault View}
    (hrebuild : (build h d target).result s'' = (answer, s''')) :
    (commit h d target bindings).result s = (.ok (kept staged answer), s''') := by
  have hattempt : (build h d target).attempt.result s'' = (.ok answer, s''') := by
    rw [Action.result_attempt, hrebuild]
  unfold commit
  rw [Action.result_bind_of_ok hbuild, Action.result_bind_of_ok habsorb,
    Action.result_bind_of_ok hattempt]
  cases answer <;> rfl

end Commit

end Playthrough

namespace Game

open Playthrough (resolve leave build kept commit_of_unbuilt commit_of_unabsorbed
  commit_of_absorbed)

/-- The game shows a view of a declared label. -/
structure At (game : Game σ) (view : View) (label : Label) : Prop where
  shown : game.play.view = some view
  declared : resolve game.play.dialogue view.label = .ok label

theorem At.unique {game : Game σ} {view view' : View} {label label' : Label}
    (here : game.At view label) (here' : game.At view' label') : view = view' ∧ label = label' := by
  obtain rfl := Option.some.inj (here.shown.symm.trans here'.shown)
  exact ⟨rfl, Except.ok.inj (here.declared.symm.trans here'.declared)⟩

/-- The ways in which a submission can go: what it answers and the game it leaves. -/
inductive Submission (h : Host κ σ) (index : Nat) (game : Game σ) :
    Except Fault Outcome × Game σ → Prop
  | ended (hview : game.play.view = none) : Submission h index game (.error (.play .ended), game)
  | lost {view : View} {fault : Fault} (hview : game.play.view = some view)
      (hlabel : resolve game.play.dialogue view.label = .error fault) :
      Submission h index game (.error fault, game)
  | refused {view : View} {label : Label} {fault : Fault} {s : σ} (here : game.At view label)
      (hleave : (leave h game.play view label index).result game.host = (.error fault, s)) :
      Submission h index game (.error fault, { game with host := s })
  | stayed {view : View} {label : Label} {s : σ} (here : game.At view label)
      (hleave : (leave h game.play view label index).result game.host = (.ok .stay, s)) :
      Submission h index game (.ok .ignored, { game with host := s })
  | unbuilt {view : View} {label : Label} {target : String} {bindings : Bindings κ} {fault : Fault}
      {s s' : σ} (here : game.At view label)
      (hleave : (leave h game.play view label index).result game.host
        = (.ok (.enter target bindings), s))
      (hbuild : (build h game.play.dialogue target).result s = (.error fault, s')) :
      Submission h index game (.error fault, { game with host := s' })
  | unabsorbed {view : View} {label : Label} {target : String} {bindings : Bindings κ}
      {staged : View} {fault : Fault} {s s' s'' : σ} (here : game.At view label)
      (hleave : (leave h game.play view label index).result game.host
        = (.ok (.enter target bindings), s))
      (hbuild : (build h game.play.dialogue target).result s = (.ok staged, s'))
      (habsorb : (h.absorb bindings).result s' = (.error fault, s'')) :
      Submission h index game (.error fault, { game with host := s'' })
  | entered {view : View} {label : Label} {target : String} {bindings : Bindings κ}
      {staged : View} {answer : Except Fault View} {s s' s'' s''' : σ} (here : game.At view label)
      (hleave : (leave h game.play view label index).result game.host
        = (.ok (.enter target bindings), s))
      (hbuild : (build h game.play.dialogue target).result s = (.ok staged, s'))
      (habsorb : (h.absorb bindings).result s' = (.ok (), s''))
      (hrebuild : (build h game.play.dialogue target).result s'' = (answer, s''')) :
      Submission h index game
        (.ok (.entered target), ⟨{ game.play with view := some (kept staged answer) }, s'''⟩)
  | closed {view : View} {label : Label} {s : σ} (here : game.At view label)
      (hleave : (leave h game.play view label index).result game.host = (.ok (.finish none), s)) :
      Submission h index game (.ok .ended, ⟨{ game.play with view := none }, s⟩)
  | unfinished {view : View} {label : Label} {bindings : Bindings κ} {fault : Fault} {s s' : σ}
      (here : game.At view label)
      (hleave : (leave h game.play view label index).result game.host
        = (.ok (.finish (some bindings)), s))
      (habsorb : (h.absorb bindings).result s = (.error fault, s')) :
      Submission h index game (.error fault, { game with host := s' })
  | finished {view : View} {label : Label} {bindings : Bindings κ} {s s' : σ}
      (here : game.At view label)
      (hleave : (leave h game.play view label index).result game.host
        = (.ok (.finish (some bindings)), s))
      (habsorb : (h.absorb bindings).result s = (.ok (), s')) :
      Submission h index game (.ok .ended, ⟨{ game.play with view := none }, s'⟩)

/-- A submission that fails or is ignored leaves the player where they were. -/
theorem Submission.play_eq {h : Host κ σ} {index : Nat} {game after : Game σ}
    {answer : Except Fault Outcome} (hsubmission : Submission h index game (answer, after))
    (hanswer : ∀ outcome, answer = .ok outcome → outcome = .ignored) : after.play = game.play := by
  cases hsubmission with
  | ended | lost | refused | stayed | unbuilt | unabsorbed | unfinished => rfl
  | entered | closed | finished => cases hanswer _ rfl

/-! ## Results of the operations -/

theorem result_currentView (game : Game σ) :
    (currentView : Action (Game σ) View).result game
      = (match game.play.view with
        | some view => .ok view
        | none => .error (.play .ended), game) := by
  unfold currentView
  rw [Action.result_bind_of_ok (Action.result_get game)]
  cases game.play.view <;> rfl

/-- Goes where a turn leads. -/
def follow (h : Host κ σ) (d : Dialogue) : Playthrough.Transition κ → Action (Game σ) Outcome
  | .enter target bindings => do
    let view ← onHost (Playthrough.commit h d target bindings)
    display (some view)
    pure (.entered target)
  | .finish bindings => do
    match bindings with
    | some bindings => onHost (h.absorb bindings)
    | none => pure ()
    display none
    pure .ended
  | .stay => pure .ignored

/-- A submission, once the view and its label are found. -/
theorem submit_of_at {h : Host κ σ} {game : Game σ} {view : View} {label : Label}
    (here : game.At view label) (index : Nat) :
    (submit h index).result game
      = (onHost (leave h game.play view label index) >>= follow h game.play.dialogue).result game := by
  have hview := result_currentView game
  rw [here.shown] at hview
  unfold submit
  rw [Action.result_bind_of_ok hview, Action.result_bind_of_ok (Action.result_get game)]
  rw [Action.result_bind_of_ok (by rw [here.declared]; exact Action.result_ofExcept _ _)]
  rfl

/-- Every submission goes in one of the listed ways. -/
theorem submission (h : Host κ σ) (index : Nat) (game : Game σ) :
    Submission h index game ((submit h index).result game) := by
  cases hview : game.play.view with
  | none =>
    have hcurrent := result_currentView game
    rw [hview] at hcurrent
    unfold submit
    rw [Action.result_bind_of_error hcurrent]
    exact .ended hview
  | some view =>
    cases hlabel : resolve game.play.dialogue view.label with
    | error fault =>
      have hcurrent := result_currentView game
      rw [hview] at hcurrent
      unfold submit
      rw [Action.result_bind_of_ok hcurrent, Action.result_bind_of_ok (Action.result_get game)]
      rw [Action.result_bind_of_error (by rw [hlabel]; exact Action.result_ofExcept _ _)]
      exact .lost hview hlabel
    | ok label =>
      have here : game.At view label := ⟨hview, hlabel⟩
      rw [submit_of_at here]
      rcases hleave : (leave h game.play view label index).result game.host with
        ⟨fault | transition, s⟩
      · rw [Action.result_bind_of_error (by rw [result_onHost, hleave])]
        exact .refused here hleave
      · rw [Action.result_bind_of_ok (by rw [result_onHost, hleave])]
        unfold follow
        cases transition with
        | stay => exact .stayed here hleave
        | finish bindings =>
          cases bindings with
          | none => exact .closed here hleave
          | some bindings =>
            dsimp only
            rcases habsorb : (h.absorb bindings).result s with ⟨fault | ⟨⟩, s'⟩
            · rw [Action.result_bind_of_error (by rw [result_onHost, habsorb])]
              exact .unfinished here hleave habsorb
            · rw [Action.result_bind_of_ok (by rw [result_onHost, habsorb])]
              exact .finished here hleave habsorb
        | enter target bindings =>
          dsimp only
          rcases hbuild : (build h game.play.dialogue target).result s with ⟨fault | staged, s'⟩
          · have hcommit : (Playthrough.commit h game.play.dialogue target bindings).result s
                = (.error fault, s') := commit_of_unbuilt hbuild
            rw [Action.result_bind_of_error (by rw [result_onHost, hcommit])]
            exact .unbuilt here hleave hbuild
          · rcases habsorb : (h.absorb bindings).result s' with ⟨fault | ⟨⟩, s''⟩
            · have hcommit := commit_of_unabsorbed hbuild habsorb
              rw [Action.result_bind_of_error (by rw [result_onHost, hcommit])]
              exact .unabsorbed here hleave hbuild habsorb
            · rcases hrebuild : (build h game.play.dialogue target).result s'' with ⟨answer, s'''⟩
              have hcommit := commit_of_absorbed hbuild habsorb hrebuild
              rw [Action.result_bind_of_ok (by rw [result_onHost, hcommit])]
              exact .entered here hleave hbuild habsorb hrebuild

theorem result_replace_of_ok {next : Dialogue → Action σ Playthrough} {game : Game σ}
    {play : Playthrough} {s : σ} (hnext : (next game.play.dialogue).result game.host = (.ok play, s)) :
    (replace next).result game = (.ok (), ⟨play, s⟩) := by
  unfold replace
  rw [Action.result_bind_of_ok (Action.result_get game),
    Action.result_bind_of_ok (by rw [result_onHost, hnext])]
  rfl

theorem result_replace_of_error {next : Dialogue → Action σ Playthrough} {game : Game σ}
    {fault : Fault} {s : σ} (hnext : (next game.play.dialogue).result game.host = (.error fault, s)) :
    (replace next).result game = (.error fault, { game with host := s }) := by
  unfold replace
  rw [Action.result_bind_of_ok (Action.result_get game),
    Action.result_bind_of_error (by rw [result_onHost, hnext])]

theorem result_replace_congr {next next' : Dialogue → Action σ Playthrough} {game : Game σ}
    (h : (next game.play.dialogue).result game.host = (next' game.play.dialogue).result game.host) :
    (replace next).result game = (replace next').result game := by
  rcases hnext : (next' game.play.dialogue).result game.host with ⟨fault | play, s⟩
  · rw [result_replace_of_error hnext, result_replace_of_error (h.trans hnext)]
  · rw [result_replace_of_ok hnext, result_replace_of_ok (h.trans hnext)]

theorem result_enter_of_ok {h : Host κ σ} {name : String} {game : Game σ} {view : View} {s : σ}
    (hbuild : (build h game.play.dialogue name).result game.host = (.ok view, s)) :
    (enter h name).result game = (.ok (), ⟨{ game.play with view := some view }, s⟩) := by
  unfold enter
  rw [Action.result_bind_of_ok (Action.result_get game),
    Action.result_bind_of_ok (by rw [result_onHost, hbuild])]
  rfl

theorem result_enter_of_error {h : Host κ σ} {name : String} {game : Game σ} {fault : Fault} {s : σ}
    (hbuild : (build h game.play.dialogue name).result game.host = (.error fault, s)) :
    (enter h name).result game = (.error fault, { game with host := s }) := by
  unfold enter
  rw [Action.result_bind_of_ok (Action.result_get game),
    Action.result_bind_of_error (by rw [result_onHost, hbuild])]

theorem result_refresh_of_view {h : Host κ σ} {game : Game σ} {view : View}
    (hview : game.play.view = some view) :
    (refresh h).result game = (enter h view.label).result game := by
  have hcurrent := result_currentView game
  rw [hview] at hcurrent
  unfold refresh
  rw [Action.result_bind_of_ok hcurrent]

theorem result_refresh_of_over {h : Host κ σ} {game : Game σ} (hview : game.play.view = none) :
    (refresh h).result game = (.error (.play .ended), game) := by
  have hcurrent := result_currentView game
  rw [hview] at hcurrent
  unfold refresh
  rw [Action.result_bind_of_error hcurrent]

/-- The ways in which an operation can go. All but submissions only ever build one label. -/
inductive Step (h : Host κ σ) (game : Game σ) :
    Operation → Except Fault (Option Outcome) × Game σ → Prop
  | submitted {index : Nat} {answer : Except Fault Outcome} {after : Game σ}
      (hsubmission : Submission h index game (answer, after)) :
      Step h game (.submit index) (answer.map some, after)
  | refused {operation : Operation} {fault : Fault} : Step h game operation (.error fault, game)
  | unbuilt {operation : Operation} {name : String} {fault : Fault} {s : σ}
      (hbuild : (build h game.play.dialogue name).result game.host = (.error fault, s)) :
      Step h game operation (.error fault, { game with host := s })
  | ended {operation : Operation} {indexing : Indexing} :
      Step h game operation (.ok none, { game with play := ⟨game.play.dialogue, indexing, none⟩ })
  | shown {operation : Operation} {indexing : Indexing} {name : String} {view : View} {s : σ}
      (hbuild : (build h game.play.dialogue name).result game.host = (.ok view, s)) :
      Step h game operation (.ok none, ⟨⟨game.play.dialogue, indexing, some view⟩, s⟩)

theorem step_enter (h : Host κ σ) (operation : Operation) (name : String) (game : Game σ) :
    Step h game operation
      ((enter h name >>= fun _ => pure none : Action (Game σ) (Option Outcome)).result game) := by
  rcases hbuild : (build h game.play.dialogue name).result game.host with ⟨fault | view, s⟩
  · rw [Action.result_bind_of_error (result_enter_of_error hbuild)]
    exact .unbuilt hbuild
  · rw [Action.result_bind_of_ok (result_enter_of_ok hbuild)]
    exact .shown hbuild

/-- Starting and resuming show a label, or nothing at all. -/
theorem step_begin (h : Host κ σ) (operation : Operation) (indexing : Indexing)
    (label : Option String) (game : Game σ) :
    Step h game operation
      ((replace (fun d => Playthrough.begin h d indexing label) >>= fun _ => pure none :
        Action (Game σ) (Option Outcome)).result game) := by
  cases label with
  | none =>
    rw [Action.result_bind_of_ok (result_replace_of_ok (Action.result_pure _ _))]
    exact .ended
  | some name =>
    rcases hbuild : (build h game.play.dialogue name).result game.host with ⟨fault | view, s⟩
    · have hbegin : (Playthrough.begin h game.play.dialogue indexing (some name)).result game.host
          = (.error fault, s) := Action.result_bind_of_error hbuild
      rw [Action.result_bind_of_error (result_replace_of_error hbegin)]
      exact .unbuilt hbuild
    · have hbegin : (Playthrough.begin h game.play.dialogue indexing (some name)).result game.host
          = (.ok ⟨game.play.dialogue, indexing, some view⟩, s) := Action.result_bind_of_ok hbuild
      rw [Action.result_bind_of_ok (result_replace_of_ok hbegin)]
      exact .shown hbuild

/-- Every operation goes in one of the listed ways. -/
theorem step (h : Host κ σ) (operation : Operation) (game : Game σ) :
    Step h game operation ((act h operation).result game) := by
  cases operation with
  | start indexing => exact step_begin h _ indexing (some game.play.dialogue.initial) game
  | resume snapshot =>
    show Step h game _
      ((replace (fun d => Playthrough.resume h d snapshot) >>= fun _ => pure none).result game)
    cases hcheck : Playthrough.checkSnapshot game.play.dialogue snapshot with
    | error fault =>
      have hresume : (Playthrough.resume h game.play.dialogue snapshot).result game.host
          = (.error fault, game.host) := by
        unfold Playthrough.resume
        rw [Action.result_bind_of_error (by rw [hcheck]; exact Action.result_ofExcept _ _)]
      rw [Action.result_bind_of_error (result_replace_of_error hresume)]
      exact .refused
    | ok accepted =>
      have hreplace : (replace fun d => Playthrough.resume h d snapshot).result game
          = (replace fun d => Playthrough.begin h d snapshot.indexing snapshot.label).result game :=
        result_replace_congr (Playthrough.resume_of_accepted hcheck game.host)
      rw [Action.result_bind, hreplace, ← Action.result_bind]
      exact step_begin h _ snapshot.indexing snapshot.label game
  | enter label => exact step_enter h _ label game
  | refresh =>
    cases hview : game.play.view with
    | none =>
      show Step h game .refresh ((refresh h >>= fun _ => pure none).result game)
      rw [Action.result_bind_of_error (result_refresh_of_over hview)]
      exact .refused
    | some view =>
      have hstep := step_enter h .refresh view.label game
      rw [Action.result_bind, ← result_refresh_of_view hview, ← Action.result_bind] at hstep
      exact hstep
  | submit index =>
    show Step h game _ ((submit h index >>= fun outcome => pure (some outcome)).result game)
    rw [Action.result_bind_pure]
    exact .submitted (submission h index game)

end Game

end Colloquy
