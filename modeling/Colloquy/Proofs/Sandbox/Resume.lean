import Colloquy.Playthrough.Source
import Colloquy.Proofs.Sandbox.Fresh

/-!
# Coming back to a place changes nothing

A snapshot holds the name of the label and how choices are counted; the prompt and the choices are
built anew when it is resumed. Main statement: `resume_transparent`. In a sandbox what is built anew
is what was shown, because what is shown is never stale (`Current`), so the resumed playthrough is
the one that was saved and nothing that is done later can tell them apart.

The program is built anew too, leniently. A strict building that succeeds gives the same dialogue
as a lenient one (`Program.ofForms_lenient`), so it does not matter how the playthrough was made.
-/

namespace Colloquy

namespace Playthrough

variable {κ σ : Type} {h : Host κ σ}

theorem startFrom_eq_ok {strict : Bool} {sources : NameMap String} {indexing : Indexing} {s s' : σ}
    {play : Playthrough} :
    (startFrom h strict sources indexing).result s = (.ok play, s') ↔
      ∃ program, Program.ofSources strict sources = .ok program ∧
        (start h program.dialogue indexing).result s = (.ok play, s') := by
  unfold startFrom
  rw [Action.result_bind_eq_ok]
  constructor
  · rintro ⟨program, s₁, hprogram, hstart⟩
    rw [Action.result_ofExcept] at hprogram
    obtain ⟨hsources, rfl⟩ := Prod.mk.inj hprogram
    exact ⟨program, hsources, hstart⟩
  · rintro ⟨program, hsources, hstart⟩
    exact ⟨program, s, by rw [hsources, Action.result_ofExcept], hstart⟩

theorem resumeFrom_of_ok {sources : NameMap String} {program : Program}
    (hsources : Program.ofSources false sources = .ok program) (snapshot : Snapshot) (s : σ) :
    (resumeFrom h sources snapshot).result s = (resume h program.dialogue snapshot).result s := by
  unfold resumeFrom
  rw [Action.result_bind_of_ok (by rw [hsources, Action.result_ofExcept])]

end Playthrough

namespace Game

variable {κ σ : Type}

/-- What each operation of a list answers and the state in which it leaves the host. -/
def transcript (h : Host κ σ) :
    List Operation → Game σ → List (Except Fault (Option Outcome) × σ)
  | [], _ => []
  | operation :: rest, game =>
    let (answer, after) := (act h operation).result game
    (answer, after.host) :: transcript h rest after

end Game

namespace Sandbox

open Playthrough (build start startFrom resumeFrom)

/-! ## Resuming -/

/-- A game that was just begun at a label, or at the end, is current and plays its dialogue. -/
theorem current_begun {d : Dialogue} (hfiled : d.labels.FiledByName) {indexing : Indexing}
    {label : Option String} {s s' : State} {play : Playthrough}
    (hbegin : (Playthrough.begin host d indexing label).result s = (.ok play, s')) :
    play.dialogue = d ∧ Current ⟨play, s'⟩ := by
  cases label with
  | none =>
    cases hbegin
    exact ⟨rfl, current_ended d indexing s⟩
  | some name =>
    obtain ⟨view, s₁, hbuild, hend⟩ := Action.result_bind_eq_ok.mp hbegin
    cases hend
    exact ⟨rfl, current_built hfiled hbuild⟩

/-- A game that was just started is current, and plays the dialogue it was started on. -/
theorem current_started {d : Dialogue} (hfiled : d.labels.FiledByName) {indexing : Indexing}
    {s s' : State} {play : Playthrough}
    (hstart : (start host d indexing).result s = (.ok play, s')) :
    play.dialogue = d ∧ Current ⟨play, s'⟩ :=
  current_begun hfiled hstart

/-- `current_started` for a game that was resumed, whoever made the snapshot. -/
theorem current_resumed {d : Dialogue} (hfiled : d.labels.FiledByName) {snapshot : Snapshot}
    {s s' : State} {play : Playthrough}
    (hresume : (Playthrough.resume host d snapshot).result s = (.ok play, s')) :
    play.dialogue = d ∧ Current ⟨play, s'⟩ := by
  obtain ⟨⟨⟩, s₁, hcheck, hbegin⟩ := Action.result_bind_eq_ok.mp hresume
  exact current_begun hfiled hbegin

/-- The snapshot of a current game is of a label that its dialogue has. -/
theorem Current.snapshot_accepted {game : Game State} (hcurrent : Current game) :
    Playthrough.checkSnapshot game.play.dialogue game.play.snapshot = .ok () := by
  unfold Playthrough.checkSnapshot Playthrough.snapshot
  dsimp only
  rw [if_neg (not_not_intro rfl)]
  cases hview : game.play.view with
  | none => rfl
  | some view =>
    obtain ⟨-, label, hlabel, -⟩ := quiet.build (hcurrent view hview)
    have hcontains : game.play.dialogue.labels.contains view.label = true :=
      Option.isSome_iff_exists.mpr ⟨label, hlabel⟩
    show (if game.play.dialogue.labels.contains view.label = true then Except.ok ()
      else Except.error (Fault.play (.snapshotLabel view.label))) = Except.ok ()
    rw [if_pos hcontains]

/-- To resume a current game is to have it as it was. -/
theorem Current.resume {game : Game State} (hcurrent : Current game) :
    (Playthrough.resume host game.play.dialogue game.play.snapshot).result game.host
      = (.ok game.play, game.host) := by
  rw [Playthrough.resume_of_accepted hcurrent.snapshot_accepted]
  obtain ⟨⟨dialogue, indexing, view⟩, s⟩ := game
  cases view with
  | none => rfl
  | some view => exact Action.result_bind_of_ok (hcurrent view rfl)

/-- **Coming back is transparent.** Of a playthrough made from files, strictly or not, after any
run of operations: resuming its snapshot from the same files succeeds, leaves the host alone and
gives the playthrough back, so that no later operations answer otherwise or leave the host in
another state. -/
theorem resume_transparent {strict : Bool} {sources : NameMap String} {indexing : Indexing}
    {s s' : State} {play : Playthrough}
    (hstart : (startFrom host strict sources indexing).result s = (.ok play, s'))
    (operations : List Operation) :
    let game := Game.run host operations ⟨play, s'⟩
    ∃ resumed,
      (resumeFrom host sources game.play.snapshot).result game.host = (.ok resumed, game.host) ∧
      resumed = game.play ∧
      ∀ later, Game.transcript host later ⟨resumed, game.host⟩ = Game.transcript host later game := by
  intro game
  obtain ⟨program, hsources, hstarted⟩ := Playthrough.startFrom_eq_ok.mp hstart
  have hfiled := Program.filedByName_of_ofSources hsources
  obtain ⟨hdialogue, hstarts⟩ := current_started hfiled hstarted
  obtain ⟨hkept, hcurrent⟩ := hstarts.run (by rw [hdialogue]; exact hfiled) operations
  have hprogram : game.play.dialogue = program.dialogue := hkept.trans hdialogue
  refine ⟨game.play, ?_, rfl, fun _ => rfl⟩
  rw [Playthrough.resumeFrom_of_ok (Program.ofSources_lenient hsources), ← hprogram]
  exact hcurrent.resume

/-- A gate that whoever has a key can go through. -/
def gateScript : String :=
  "(label gate (text \"A gate.\") (choice \"In\" gate keys)) (start-dialogue gate)"

def gateForms : List Expr := [
  .list [.symbol "label", .symbol "gate", .list [.symbol "text", .text "A gate."],
    .list [.symbol "choice", .text "In", .symbol "gate", .symbol "keys"]],
  .list [.symbol "start-dialogue", .symbol "gate"]]

def gateDialogue : Dialogue :=
  ⟨"gate", .ofList [("gate", ⟨"gate", "A gate.", some [⟨"In", "gate", some (.symbol "keys")⟩], none⟩)]⟩

theorem ofSources_gateScript :
    Program.ofSources true (.ofList [("gate", gateScript)]) = .ok ⟨gateDialogue, []⟩ := by
  have hread : readSource gateScript = .ok gateForms := by with_unfolding_all rfl
  refine Program.ofSources_eq_ok.mpr ⟨[gateForms], ?_, rfl⟩
  show [("gate", gateScript)].mapM Program.formsOfFile = .ok [gateForms]
  rw [List.mapM_cons, Program.formsOfFile, mapError_eq_ok.mpr hread]
  rfl

theorem start_gateDialogue :
    (start host gateDialogue .visible).result ⟨.origin, .ofList [("keys", 1)]⟩
      = (.ok ⟨gateDialogue, .visible, some ⟨"gate", "A gate.", ["In"], [0]⟩⟩,
          ⟨.origin, .ofList [("keys", 1)]⟩) := by
  with_unfolding_all rfl

/-- Back at the gate, after a submission that is refused, coming back changes nothing. -/
theorem resume_at_gate :
    let sources : NameMap String := .ofList [("gate", gateScript)]
    ∃ play s', (startFrom host true sources .visible).result ⟨.origin, .ofList [("keys", 1)]⟩
        = (.ok play, s') ∧
      let game := Game.run host [.submit 0, .submit 1] ⟨play, s'⟩
      game.play.view = some ⟨"gate", "A gate.", ["In"], [0]⟩ ∧
      (resumeFrom host sources game.play.snapshot).result game.host = (.ok game.play, game.host) := by
  intro sources
  have hstarted := Playthrough.startFrom_eq_ok.mpr ⟨_, ofSources_gateScript, start_gateDialogue⟩
  refine ⟨_, _, hstarted, ?_⟩
  obtain ⟨resumed, hresumed, rfl, -⟩ := resume_transparent hstarted [.submit 0, .submit 1]
  exact ⟨by decide +kernel, hresumed⟩

end Sandbox

end Colloquy
