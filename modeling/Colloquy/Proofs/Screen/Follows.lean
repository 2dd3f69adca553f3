import Colloquy.Proofs.Session.Load
import Colloquy.Screen.Keys

/-!
# The screen follows the session

The full-screen player keeps the choices twice, in the playthrough and on the screen, and changes
the one and the other at different points. The invariant is `Screen.Follows`: the screen lists what
the playthrough offers, says whether it has ended and marks one of the choices. It is set up whenever
a boundary is shown (`follows_withChoices`) and kept by whatever leaves the choices and the mark alone
(`Screen.SameMark`).

Main statements: `FullScreen.follows_press`, that every key keeps it, whether it fails or not, and
`FullScreen.follows_run`, that a whole run does. The session stays one that the scenario can be played
in (`Session.Played`) all along.
-/

namespace Colloquy

namespace Screen

/-! ## Screens with the same mark -/

section SameMark

variable {s t : Screen}

/-- A screen with the same choices, the same mark and the same window. -/
structure SameMark (s t : Screen) : Prop where
  choices : t.choices = s.choices
  ended : t.ended = s.ended
  selected : t.selected = s.selected
  scroll : t.scroll = s.scroll

theorem SameMark.refl (s : Screen) : s.SameMark s := ⟨rfl, rfl, rfl, rfl⟩

theorem SameMark.trans {u : Screen} (h : s.SameMark t) (h' : t.SameMark u) : s.SameMark u :=
  ⟨h'.choices.trans h.choices, h'.ended.trans h.ended, h'.selected.trans h.selected,
    h'.scroll.trans h.scroll⟩

theorem sameMark_withStatus (s : Screen) (status : String) : s.SameMark (s.withStatus status) :=
  ⟨rfl, rfl, rfl, rfl⟩

theorem sameMark_withHost (s : Screen) (host : Sandbox.State) : s.SameMark (s.withHost host) := by
  unfold withHost
  generalize hostLine host = summary
  exact ⟨rfl, rfl, rfl, rfl⟩

/-- To type goes on with the text and leaves the choices alone. -/
theorem sameMark_advance (hnext : s.advance = some t) : s.SameMark t := by
  unfold advance at hnext
  split at hnext
  · split at hnext
    · cases hnext
    · split at hnext <;> cases hnext <;> exact ⟨rfl, rfl, rfl, rfl⟩
  · split at hnext <;> cases hnext <;> exact ⟨rfl, rfl, rfl, rfl⟩

theorem sameMark_finish (s : Screen) : s.SameMark s.finish := by
  fun_induction finish s with
  | case1 s hdone => exact .refl s
  | case2 s next hnext _ ih => exact (sameMark_advance hnext).trans ih

end SameMark

/-- Where choices are listed and nothing is being typed, nothing stands against choosing. -/
theorem blocked?_of_listed {s : Screen} (htyped : s.isTyping = false) (hgoing : s.ended = false)
    (hlisted : s.choices ≠ []) : s.blocked? = none := by
  unfold blocked?
  rw [htyped, hgoing, List.isEmpty_eq_false_iff.mpr hlisted]
  rfl

/-! ## The screen and the playthrough -/

/-- The screen lists the choices of the playthrough, of which it marks one, and says whether it has
ended. -/
structure Follows (screen : Screen) (p : Playthrough) : Prop where
  choices : screen.choices = p.indexedChoices
  ended : screen.ended = p.isEnded
  selected : screen.choices ≠ [] → screen.selected < screen.choices.length

variable {screen : Screen} {p : Playthrough}

/-- To show a boundary is to follow the playthrough that it is of. -/
theorem follows_withChoices (screen : Screen) (p : Playthrough) :
    (screen.withChoices p.boundary).Follows p := by
  unfold Playthrough.boundary
  cases hview : p.view with
  | none =>
    refine ⟨?_, ?_, fun hchoices => absurd rfl hchoices⟩
    · unfold Playthrough.indexedChoices
      rw [hview]
      rfl
    · unfold Playthrough.isEnded
      rw [hview]
      rfl
  | some view =>
    refine ⟨rfl, ?_, fun hchoices => List.length_pos_iff.mpr hchoices⟩
    unfold Playthrough.isEnded
    rw [hview]
    rfl

/-- A screen with the same mark follows what the other one follows. -/
theorem Follows.of_sameMark (h : screen.Follows p) {other : Screen} (hsame : screen.SameMark other) :
    other.Follows p := by
  refine ⟨hsame.choices.trans h.choices, hsame.ended.trans h.ended, fun hother => ?_⟩
  rw [hsame.choices] at hother ⊢
  rw [hsame.selected]
  exact h.selected hother

theorem Follows.withStatus (h : screen.Follows p) (status : String) :
    (screen.withStatus status).Follows p :=
  h.of_sameMark (sameMark_withStatus screen status)

theorem Follows.withHost (h : screen.Follows p) (host : Sandbox.State) :
    (screen.withHost host).Follows p :=
  h.of_sameMark (sameMark_withHost screen host)

theorem follows_append (screen : Screen) (p : Playthrough) : (screen.append p.boundary).Follows p :=
  follows_withChoices _ p

theorem follows_replace (screen : Screen) (p : Playthrough) : (screen.replace p.boundary).Follows p :=
  follows_withChoices _ p

theorem Follows.up (h : screen.Follows p) : screen.up.Follows p :=
  ⟨h.choices, h.ended, fun hchoices => Nat.lt_of_le_of_lt (Nat.sub_le _ 1) (h.selected hchoices)⟩

theorem Follows.down (h : screen.Follows p) : screen.down.Follows p := by
  refine ⟨h.choices, h.ended, fun hchoices => ?_⟩
  -- the mark stops at the last choice
  have hlength : 0 < screen.choices.length := List.length_pos_iff.mpr hchoices
  show min (screen.selected + 1) (screen.choices.length - 1) < screen.choices.length
  omega

end Screen

/-! ## The sessions of a scenario -/

/-- The sessions that a scenario is played in: created for it, or resumed from a saved game of it,
and played on. -/
inductive Session.Played (s : Scenario) : Session → Prop
  | created {indexing : Indexing} {session : Session}
      (hcreate : Session.create s indexing = .ok session) : Played s session
  | resumed {saved : SavedGame} {session : Session} (hid : saved.scenarioId = s.id)
      (hresume : Session.resume s saved = .ok session) : Played s session
  | submitted {session : Session} (h : Played s session) (index : Nat) :
      Played s ((Session.submit index).result session).2

theorem Session.Played.of {s : Scenario} {session : Session} (h : Session.Played s session) :
    Session.Of s session := by
  induction h with
  | created hcreate => exact of_created hcreate
  | resumed hid hresume => exact of_resumed hid hresume
  | submitted _ index ih => exact ih.submit index

theorem Session.played_of_loadFor {s : Scenario} {d : Disk} {path : String} {session : Session}
    (hload : Session.loadFor d path s = .ok session) : Session.Played s session := by
  unfold Session.loadFor at hload
  obtain ⟨saved, -, hresume⟩ := bind_eq_ok.mp hload
  split at hresume
  · next hid => exact .resumed hid hresume
  · cases hresume

theorem Session.play_of_submit {index : Nat} {session after : Session} {answer : Except Fault Outcome}
    (hsubmit : (Session.submit index).result session = (answer, after))
    (hanswer : ∀ outcome, answer = .ok outcome → outcome = .ignored) :
    after.game.play = session.game.play := by
  obtain ⟨rfl, rfl⟩ := Prod.mk.inj hsubmit
  exact (Game.submission Sandbox.host index session.game).play_eq hanswer

/-! ## The player behind the screen -/

/-- The ways in which a command can go: it fails or is carried out with the session left alone,
whatever became of the files, or it puts another session of the scenario in its place. -/
inductive Player.Commanded (s : Setting) (player : Player) :
    PlayerCommand → Except Fault String × Player → Prop
  | failed {c : PlayerCommand} {fault : Fault} {disk : Disk} :
      Commanded s player c (.error fault, { player with disk })
  | carriedOut {c : PlayerCommand} {line : String} {disk : Disk} :
      Commanded s player c (.ok line, { player with disk })
  | loaded {line : String} {session : Session} (hplayed : Session.Played s.scenario session) :
      Commanded s player .load (.ok line, { player with session })
  | restarted {line : String} {session : Session} (hplayed : Session.Played s.scenario session) :
      Commanded s player .restart (.ok line, { player with session })

theorem Player.commanded (s : Setting) (player : Player) (c : PlayerCommand) :
    Commanded s player c ((Player.command s c).result player) := by
  cases c with
  | help => exact .carriedOut
  | quit => exact .carriedOut
  | save =>
    unfold command
    rw [Action.result_bind_of_ok (Action.result_get player)]
    rcases hwrite : (player.session.saved.write s.stateFile).result player.disk with
      ⟨fault | written, disk⟩
    · have hfail : (onDisk (player.session.saved.write s.stateFile)).result player
          = (.error fault, { player with disk }) := by
        unfold onDisk
        rw [Action.result_within, hwrite]
      rw [Action.result_bind_of_error hfail]
      exact .failed
    · have hsave : (onDisk (player.session.saved.write s.stateFile)).result player
          = (.ok written, { player with disk }) := by
        unfold onDisk
        rw [Action.result_within, hwrite]
      rw [Action.result_bind_of_ok hsave, Action.result_pure]
      exact .carriedOut
  | load =>
    unfold command
    rw [Action.result_bind_of_ok (Action.result_get player), Action.result_ofExcept_bind]
    cases hload : Session.loadFor player.disk s.stateFile s.scenario with
    | error fault => exact .failed
    | ok session => exact .loaded (Session.played_of_loadFor hload)
  | restart =>
    unfold command
    rw [Action.result_bind_of_ok (Action.result_get player), Action.result_ofExcept_bind]
    cases hcreate : Session.create s.scenario player.session.game.play.indexing with
    | error fault => exact .failed
    | ok session => exact .restarted (.created hcreate)

namespace FullScreen

variable {s : Setting} {f : FullScreen}

/-- The screen follows the session, which is one of the scenario. -/
structure Follows (s : Scenario) (f : FullScreen) : Prop where
  screen : f.screen.Follows f.player.session.game.play
  played : Session.Played s f.player.session

/-- What a screen shows of a boundary after a command. -/
def shown (screen : Screen) (boundary : Boundary) : PlayerCommand → Screen
  | .restart => screen.replace boundary
  | .load => screen.append boundary
  | _ => screen

theorem result_command_of_ok {c : PlayerCommand} {line : String} {player : Player}
    (hcommand : (Player.command s c).result f.player = (.ok line, player)) :
    (command s c).result f = (.ok (),
      ⟨(shown (f.screen.withStatus line) player.session.boundary c).withHost player.session.game.host,
        player⟩) := by
  have hplayer : (onPlayer (Player.command s c)).result f = (.ok line, { f with player }) := by
    unfold onPlayer
    rw [Action.result_within, hcommand]
  unfold command
  rw [Action.result_bind_of_ok hplayer]
  cases c <;> rfl

theorem result_command_of_error {c : PlayerCommand} {fault : Fault} {player : Player}
    (hcommand : (Player.command s c).result f.player = (.error fault, player)) :
    (command s c).result f = (.error fault, { f with player }) := by
  have hplayer : (onPlayer (Player.command s c)).result f = (.error fault, { f with player }) := by
    unfold onPlayer
    rw [Action.result_within, hcommand]
  unfold command
  rw [Action.result_bind_of_error hplayer]

theorem follows_command (h : f.Follows s.scenario) (c : PlayerCommand) :
    ((command s c).result f).2.Follows s.scenario := by
  have hcommanded := Player.commanded s f.player c
  rcases hcommand : (Player.command s c).result f.player with ⟨answer, player⟩
  rw [hcommand] at hcommanded
  cases hcommanded with
  | failed =>
    rw [result_command_of_error hcommand]
    exact ⟨h.screen, h.played⟩
  | @carriedOut _ line =>
    rw [result_command_of_ok hcommand]
    refine ⟨Screen.Follows.withHost ?_ _, h.played⟩
    cases c with
    | help | save | quit => exact h.screen.withStatus line
    | load => exact Screen.follows_append _ _
    | restart => exact Screen.follows_replace _ _
  | loaded hplayed =>
    rw [result_command_of_ok hcommand]
    exact ⟨(Screen.follows_append _ _).withHost _, hplayed⟩
  | restarted hplayed =>
    rw [result_command_of_ok hcommand]
    exact ⟨(Screen.follows_replace _ _).withHost _, hplayed⟩

/-- To move the mark keeps it on one of the choices. -/
theorem follows_move (h : f.Follows s.scenario) {g : Screen → Screen}
    (hg : (g f.screen).Follows f.player.session.game.play) :
    ((move g).result f).2.Follows s.scenario := by
  refine ⟨?_, h.played⟩
  unfold move draw
  rw [Action.result_modify]
  dsimp only
  split
  · exact h.screen.withStatus _
  · exact hg

/-- A submission of the marked choice: the session it leaves, and the screen by what it answers. -/
theorem result_submit {index : Nat} {text : String}
    (hmarked : f.screen.choices[f.screen.selected]? = some (index, text)) :
    submit.result f = match (Session.submit index).result f.player.session with
      | (.ok .ignored, session) =>
        (.ok (), ⟨f.screen.withStatus s!"\"{text}\" is not available", { f.player with session }⟩)
      | (.ok _, session) =>
        (.ok (), ⟨((f.screen.append session.boundary).withHost session.game.host).withStatus
          s!"chose {text}", { f.player with session }⟩)
      | (.error fault, session) =>
        if fault.kind = .indexOutOfRange then
          (.ok (), ⟨f.screen.withStatus fault.message, { f.player with session }⟩)
        else (.error fault, ⟨f.screen, { f.player with session }⟩) := by
  rcases hsubmit : (Session.submit index).result f.player.session with ⟨answer, session⟩
  have hattempt : (onPlayer (Player.onSession (Session.submit index))).attempt.result f
      = (.ok answer, { f with player := { f.player with session } }) := by
    unfold onPlayer Player.onSession
    rw [Action.result_attempt, Action.result_within, Action.result_within, hsubmit]
  unfold submit
  rw [Action.result_bind_of_ok (Action.result_get f)]
  dsimp only
  rw [hmarked]
  dsimp only
  rw [Action.result_bind_of_ok hattempt]
  cases answer with
  | ok outcome => cases outcome <;> rfl
  | error fault =>
    dsimp only
    split <;> rfl

theorem follows_submit (h : f.Follows s.scenario) : (submit.result f).2.Follows s.scenario := by
  cases hmarked : f.screen.choices[f.screen.selected]? with
  | none =>
    unfold submit
    rw [Action.result_bind_of_ok (Action.result_get f)]
    dsimp only
    rw [hmarked]
    exact h
  | some choice =>
    have hplayed := h.played.submitted (choice.1)
    rw [result_submit hmarked]
    rcases hsubmit : (Session.submit choice.1).result f.player.session with ⟨answer, session⟩
    rw [hsubmit] at hplayed
    -- where the player is still at the same place the screen may stay as it was
    have hstays : (∀ outcome, answer = .ok outcome → outcome = .ignored) →
        f.screen.Follows session.game.play := fun hanswer => by
      rw [Session.play_of_submit hsubmit hanswer]
      exact h.screen
    cases answer with
    | ok outcome =>
      cases outcome with
      | ignored =>
        refine ⟨(hstays fun outcome houtcome => ?_).withStatus _, hplayed⟩
        exact (Except.ok.inj houtcome).symm
      | entered label => exact ⟨((Screen.follows_append _ _).withHost _).withStatus _, hplayed⟩
      | ended => exact ⟨((Screen.follows_append _ _).withHost _).withStatus _, hplayed⟩
    | error fault =>
      have hsame := hstays fun outcome houtcome => by cases houtcome
      dsimp only
      split
      · exact ⟨hsame.withStatus _, hplayed⟩
      · exact ⟨hsame, hplayed⟩

/-- Enter submits the marked choice where nothing stands against it. -/
theorem enter_of_free (hfree : f.screen.blocked? = none) : enter.result f = submit.result f := by
  have htyped : f.screen.isTyping = false := by
    by_contra htyping
    unfold Screen.blocked? at hfree
    rw [if_pos (by simpa using htyping)] at hfree
    cases hfree
  unfold enter
  rw [Action.result_bind_of_ok (Action.result_get f)]
  dsimp only
  rw [htyped, hfree]
  rfl

/-- Enter shows the rest of the text, says why nothing can be chosen, or submits. -/
theorem follows_enter (h : f.Follows s.scenario) : (enter.result f).2.Follows s.scenario := by
  unfold enter
  rw [Action.result_bind_of_ok (Action.result_get f)]
  dsimp only
  split
  · exact ⟨h.screen.of_sameMark (Screen.sameMark_finish _), h.played⟩
  · split
    · exact ⟨h.screen.withStatus _, h.played⟩
    · exact follows_submit h

/-- Every key keeps the screen following the session, also where it fails. -/
theorem follows_press (h : f.Follows s.scenario) (key : Key) :
    ((press s key).result f).2.Follows s.scenario := by
  unfold press
  split
  · exact h
  · split
    · rw [Action.result_bind_pure]
      exact follows_command h _
    · split
      · exact ⟨h.screen.of_sameMark ⟨rfl, rfl, rfl, rfl⟩, h.played⟩
      · rw [Action.result_bind_pure]
        exact follows_move h h.screen.up
      · rw [Action.result_bind_pure]
        exact follows_move h h.screen.down
      · rw [Action.result_bind_pure]
        exact follows_enter h
      · exact h

/-! ## Runs -/

/-- What can happen while the player runs: a key is pressed, one more character is typed, or the
files are changed from outside. -/
inductive Event
  | key (key : Key)
  | tick
  | files (disk : Disk)

/-- The player after an event. A key that fails has its fault shown. -/
def take (s : Setting) (f : FullScreen) : Event → FullScreen
  | .key key =>
    match (press s key).result f with
    | (.ok _, f) => f
    | (.error fault, f) => { f with screen := f.screen.withStatus fault.message }
  | .tick =>
    match f.screen.advance with
    | some screen => { f with screen }
    | none => f
  | .files disk => { f with player := { f.player with disk } }

/-- The player after some events. -/
def run (s : Setting) (events : List Event) (f : FullScreen) : FullScreen := events.foldl (take s) f

theorem follows_take (h : f.Follows s.scenario) (event : Event) :
    (take s f event).Follows s.scenario := by
  cases event with
  | key key =>
    have hpress := follows_press h key
    unfold take
    dsimp only
    -- to show the fault changes nothing but the status of what the key left
    rcases hresult : (press s key).result f with ⟨fault | quit, after⟩
    · rw [hresult] at hpress
      exact ⟨hpress.screen.withStatus _, hpress.played⟩
    · rw [hresult] at hpress
      exact hpress
  | tick =>
    unfold take
    dsimp only
    split
    · next screen hnext => exact ⟨h.screen.of_sameMark (Screen.sameMark_advance hnext), h.played⟩
    · exact h
  | files disk => exact ⟨h.screen, h.played⟩

theorem follows_run (events : List Event) :
    ∀ {f : FullScreen}, f.Follows s.scenario → (run s events f).Follows s.scenario := by
  induction events with
  | nil => exact fun h => h
  | cons event rest ih => exact fun h => ih (follows_take h event)

end FullScreen

end Colloquy
