import Colloquy.Proofs.Playthrough.Fault
import Colloquy.Proofs.Sandbox.Offered
import Colloquy.Proofs.Screen.Follows

/-!
# Enter takes the marked choice

The key handler is ready for a marked choice that the session does not offer, or no longer: it has a
status for a choice that is ignored, one for an index that is out of range, and a fault for a mark
beside the list. Main statement, `screen_follows_session`: none of this is ever seen. The screen
follows the session, what the session shows is never stale, and so the marked choice is one that can
be taken (`taken_of_marked`) and Enter makes its submission (`press_enter_of_taken`).
-/

namespace Colloquy

open Colloquy.Action (FailsIn)

namespace FullScreen

variable {s : Setting} {f : FullScreen}

/-- What Enter comes to where the choice with the given index and text is marked: its submission is
made, and where it goes the screen goes too; where it fails the screen stays as it was. -/
def chosen (f : FullScreen) (index : Nat) (text : String) : Except Fault Bool × FullScreen :=
  match (Session.submit index).result f.player.session with
  | (.ok _, session) =>
    (.ok false, ⟨((f.screen.append session.boundary).withHost session.game.host).withStatus
      s!"chose {text}", { f.player with session }⟩)
  | (.error fault, session) => (.error fault, ⟨f.screen, { f.player with session }⟩)

/-- Where choices are listed the playthrough has not ended. -/
theorem exists_view (h : f.Follows s.scenario) (hlisted : f.screen.choices ≠ []) :
    ∃ view, f.player.session.game.play.view = some view := by
  cases hview : f.player.session.game.play.view with
  | some view => exact ⟨view, rfl⟩
  | none =>
    refine absurd ?_ hlisted
    rw [h.screen.choices]
    unfold Playthrough.indexedChoices
    rw [hview]

/-- While nothing is being typed and choices are listed, Enter submits. -/
theorem enter_of_listed (h : f.Follows s.scenario) (htyped : f.screen.isTyping = false)
    (hlisted : f.screen.choices ≠ []) : enter.result f = submit.result f := by
  obtain ⟨view, hview⟩ := exists_view h hlisted
  have hgoing : f.screen.ended = false := by
    rw [h.screen.ended]
    unfold Playthrough.isEnded
    rw [hview]
    rfl
  exact enter_of_free (Screen.blocked?_of_listed htyped hgoing hlisted)

/-- The marked choice is one that the session offers, and it can be taken. -/
theorem taken_of_marked (h : f.Follows s.scenario) (hlisted : f.screen.choices ≠ []) :
    ∃ index text view label, f.screen.choices[f.screen.selected]? = some (index, text) ∧
      f.player.session.game.play.view = some view ∧
      f.player.session.game.play.dialogue.label? view.label = some label ∧
      Sandbox.Taken f.player.session.game.host label f.screen.selected text
        ((Session.submit index).result f.player.session).1 := by
  obtain ⟨view, hview⟩ := exists_view h hlisted
  obtain ⟨label, here, rfl⟩ := h.played.of.current.fresh view hview
  obtain ⟨⟨index, text⟩, hmarked⟩ : ∃ choice, f.screen.choices[f.screen.selected]? = some choice :=
    ⟨_, List.getElem?_eq_getElem (h.screen.selected hlisted)⟩
  have hoffered := hmarked
  rw [h.screen.choices, Playthrough.getElem?_indexedChoices hview] at hoffered
  obtain ⟨shown, htext, hpair⟩ := Option.map_eq_some_iff.mp hoffered
  obtain ⟨rfl, rfl⟩ := Prod.mk.inj hpair
  exact ⟨_, shown, _, label, hmarked, hview, Playthrough.resolve_eq_ok.mp here.declared,
    Sandbox.taken_at_position here htext⟩

/-- A submission in the sandbox does not fail as if there were no choices. -/
theorem code_of_submit {index : Nat} {session after : Session} {fault : Fault}
    (hsubmit : (Session.submit index).result session = (.error fault, after)) :
    fault.code ≠ "TUI_CHOICE_PARSE" := by
  -- the code stands for a mark beside the list, and neither code nor the sandbox can raise it
  have hhost : ∀ code ∈ Sandbox.faultCodes, ∀ message,
      (Fault.host code message).code ≠ "TUI_CHOICE_PARSE" := by
    intro code hcode message
    show code ≠ "TUI_CHOICE_PARSE"
    rintro rfl
    revert hcode
    decide
  have hkind : ∀ kind : FaultKind, kind.code ≠ "TUI_CHOICE_PARSE" := by
    intro kind
    cases kind <;> decide
  have hraises : Sandbox.host.Raises fun fault => fault.code ≠ "TUI_CHOICE_PARSE" :=
    Sandbox.raises (fun cause => hkind cause.kind) hhost
  have hfails : FailsIn (fun fault => fault.code ≠ "TUI_CHOICE_PARSE") (Session.submit index) :=
    (hraises.submit (fun cause => hkind cause.kind) (Sandbox.absorb_failsIn hhost) index).within
  exact hfails session fault after hsubmit

/-- Enter takes the marked choice. -/
theorem press_enter_of_taken (h : f.Follows s.scenario) (htyped : f.screen.isTyping = false)
    (hlisted : f.screen.choices ≠ []) {index : Nat} {text : String}
    (hmarked : f.screen.choices[f.screen.selected]? = some (index, text)) {label : Label}
    (htaken : Sandbox.Taken f.player.session.game.host label f.screen.selected text
      ((Session.submit index).result f.player.session).1) :
    (press s .enter).result f = chosen f index text := by
  have hpress : (press s .enter).result f
      = ((enter.result f).1.map fun _ => false, (enter.result f).2) :=
    Action.result_bind_pure enter (fun _ => false) f
  rw [hpress, enter_of_listed h htyped hlisted, result_submit hmarked]
  unfold chosen
  rcases hsubmit : (Session.submit index).result f.player.session with ⟨answer, session⟩
  rw [hsubmit] at htaken
  -- the two answers that Enter would meet with a status are those that a taken choice excludes
  cases answer with
  | ok outcome =>
    cases outcome with
    | ignored => exact absurd rfl htaken.heeded
    | entered label => rfl
    | ended => rfl
  | error fault =>
    have hrange : fault.kind ≠ .indexOutOfRange := fun hkind => htaken.accepted fault rfl (.inl hkind)
    dsimp only
    rw [if_neg hrange]
    rfl

end FullScreen

/-- **The screen follows the session.** Whatever session of a scenario a screen was started with, and
whatever keys are pressed, characters typed and files changed since, keys that fail among them: the
screen lists the choices of the session with their indices, and says whether it has ended. And while
nothing is being typed and choices are listed, the marked one can be taken: Enter makes its
submission and shows where it goes, or fails as the submission does with the screen as it was, and
that fault is neither an index that is out of range nor a lack of choices. -/
theorem screen_follows_session {s : Setting} {session : Session}
    (hplayed : Session.Played s.scenario session) (screen : Screen) (disk : Disk)
    (events : List FullScreen.Event) :
    let f := FullScreen.run s events ⟨screen.replace session.boundary, ⟨session, disk⟩⟩
    let play := f.player.session.game.play
    (f.screen.choices = play.indexedChoices ∧ f.screen.ended = play.isEnded) ∧
    (f.screen.isTyping = false → f.screen.choices ≠ [] →
      ∃ index text view label, f.screen.choices[f.screen.selected]? = some (index, text) ∧
        play.view = some view ∧ play.dialogue.label? view.label = some label ∧
        Sandbox.Taken f.player.session.game.host label f.screen.selected text
          ((Session.submit index).result f.player.session).1 ∧
        (FullScreen.press s .enter).result f = f.chosen index text ∧
        ∀ fault, ((FullScreen.press s .enter).result f).1 = .error fault →
          fault.kind ≠ .indexOutOfRange ∧ fault.code ≠ "TUI_CHOICE_PARSE") := by
  intro f play
  have hfollows : f.Follows s.scenario :=
    FullScreen.follows_run events ⟨Screen.follows_replace screen session.game.play, hplayed⟩
  refine ⟨⟨hfollows.screen.choices, hfollows.screen.ended⟩, fun htyped hlisted => ?_⟩
  obtain ⟨index, text, view, label, hmarked, hview, hlabel, htaken⟩ :=
    FullScreen.taken_of_marked hfollows hlisted
  have henter := FullScreen.press_enter_of_taken hfollows htyped hlisted hmarked htaken
  refine ⟨index, text, view, label, hmarked, hview, hlabel, htaken, henter, fun fault hfail => ?_⟩
  rw [henter] at hfail
  unfold FullScreen.chosen at hfail
  rcases hsubmit : (Session.submit index).result f.player.session with ⟨answer, after⟩
  rw [hsubmit] at hfail htaken
  cases answer with
  | ok outcome => cases hfail
  | error cause =>
    cases hfail
    exact ⟨fun hkind => htaken.accepted fault rfl (.inl hkind), FullScreen.code_of_submit hsubmit⟩

/-- A gate, with a key to it. -/
def gateSetting : Setting where
  scenario := {
    id := "scripts-dir:gate"
    title := "Scripts gate"
    sources := .ofList [("gate", Sandbox.gateScript)]
    host := ⟨.origin, .ofList [("keys", 1)]⟩ }
  stateFile := "state.json"

/-- A game at the gate as it is created. -/
def gateSession : Session :=
  ⟨gateSetting.scenario.id, ⟨⟨Sandbox.gateDialogue, .visible, some ⟨"gate", "A gate.", ["In"], [0]⟩⟩,
    gateSetting.scenario.host⟩⟩

/-- The player at the gate once the prompt is typed. -/
def atGate : FullScreen :=
  FullScreen.run gateSetting (List.replicate 9 .tick)
    ⟨(Screen.blank "ready").replace gateSession.boundary, ⟨gateSession, ⟨.folder [], []⟩⟩⟩

theorem create_gateSession : Session.create gateSetting.scenario .visible = .ok gateSession :=
  Session.create_eq_ok.mpr ⟨_, _, _, Program.ofSources_lenient Sandbox.ofSources_gateScript,
    Sandbox.start_gateDialogue, rfl⟩

/-- Going in is all that can be chosen, and Enter chooses it. -/
theorem enter_at_gate :
    atGate.screen.isTyping = false ∧ atGate.screen.choices = [(0, "In")] ∧
      (FullScreen.press gateSetting .enter).result atGate = atGate.chosen 0 "In" ∧
      (atGate.chosen 0 "In").2.screen.status = "chose In" := by
  have htyped : atGate.screen.isTyping = false := rfl
  have hlisted : atGate.screen.choices = [(0, "In")] := rfl
  obtain ⟨-, hmarks⟩ := screen_follows_session (.created create_gateSession) (Screen.blank "ready")
    ⟨.folder [], []⟩ (List.replicate 9 .tick)
  obtain ⟨index, text, -, -, hmarked, -, -, -, henter, -⟩ :=
    hmarks htyped fun hnone => List.cons_ne_nil _ _ (hlisted.symm.trans hnone)
  have hfirst : some (0, "In") = some (index, text) := hmarked
  cases hfirst
  exact ⟨htyped, hlisted, henter, by decide +kernel⟩

end Colloquy
