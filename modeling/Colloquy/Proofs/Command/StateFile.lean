import Colloquy.Proofs.Command.Agent
import Colloquy.Proofs.FileTree.Frame

/-!
# When an agent's command writes

A command that saves the game at a path writes once, after everything that can fail: where there is
something left to choose (`Command.Concluded`). Writing the saved game may fail itself, and then at
most folders were made (`SavedGame.write_cases`). Main statement, `Command.state_file_only_at_choices`:
a command that fails or comes to the end of the dialogue leaves every file as it was, and one that
offers choices changes the file it is to write, which then holds the game at the boundary that was
told.
-/

namespace Colloquy

open FileTree (ChangesOnly)

/-- A saved game is written, or no file was touched. -/
theorem SavedGame.write_cases {d : Disk} (hcurrent : d.HasCurrent) (s : SavedGame) (path : String) :
    (∃ fault d', (s.write path).result d = (.error fault, d') ∧ ChangesOnly [] d.root d'.root) ∨
    ∃ d' place, (s.write path).result d = (.ok (), d') ∧ d'.locate? path = some place ∧
      ChangesOnly [place] d.root d'.root := by
  have hfolders := Disk.changesOnly_makeParent hcurrent path
  unfold write
  rw [Action.result_bind_of_ok (Action.result_get d)]
  generalize d.makeParent path = parent at hfolders
  obtain ⟨folders, made⟩ := parent
  dsimp only at hfolders ⊢
  rw [Action.result_bind_of_ok (Action.result_set d folders)]
  cases made with
  | false => exact .inl ⟨_, folders, rfl, hfolders⟩
  | true =>
    rw [if_pos rfl]
    cases hwrite : folders.writeFile path s.text.toUTF8 with
    | none => exact .inl ⟨_, folders, rfl, hfolders⟩
    | some written =>
      obtain ⟨place, hplace, hchanges⟩ := Disk.changesOnly_writeFile hwrite
      exact .inr ⟨written, place, rfl, hplace, (hfolders.mono (List.nil_subset _)).trans hchanges⟩

/-! ## The mode of a game -/

/-- A submission leaves the meaning of indices as it was. -/
theorem Game.Submission.indexing_eq {κ σ : Type} {h : Host κ σ} {index : Nat} {game after : Game σ}
    {answer : Except Fault Outcome} (hsubmission : Game.Submission h index game (answer, after)) :
    after.play.indexing = game.play.indexing := by
  cases hsubmission <;> rfl

theorem Playthrough.indexing_begin {κ σ : Type} {h : Host κ σ} {dialogue : Dialogue}
    {indexing : Indexing} {label : Option String} {play : Playthrough} {s s' : σ}
    (hbegin : (begin h dialogue indexing label).result s = (.ok play, s')) :
    play.indexing = indexing := by
  cases label with
  | none =>
    cases hbegin
    rfl
  | some name =>
    obtain ⟨view, _, -, hview⟩ := Action.result_bind_eq_ok.mp hbegin
    cases hview
    rfl

namespace Session

theorem indexing_created {s : Scenario} {indexing : Indexing} {session : Session}
    (h : create s indexing = .ok session) : session.game.play.indexing = indexing := by
  obtain ⟨program, play, host, -, hstart, rfl⟩ := create_eq_ok.mp h
  exact Playthrough.indexing_begin hstart

theorem indexing_resumed {s : Scenario} {saved : SavedGame} {session : Session}
    (h : resume s saved = .ok session) : session.game.play.indexing = saved.snapshot.indexing := by
  obtain ⟨program, play, host, -, hresume, rfl⟩ := resume_eq_ok.mp h
  obtain ⟨_, _, -, hbegin⟩ := Action.result_bind_eq_ok.mp hresume
  exact Playthrough.indexing_begin hbegin

theorem indexing_submitted {session session' : Session} {choice : Nat}
    (h : session.submitted choice = .ok session') :
    session'.game.play.indexing = session.game.play.indexing := by
  have hsubmission := Game.submission Sandbox.host choice session.game
  unfold Session.submitted submit at h
  rw [Action.result_within] at h
  rcases hgame : (Game.submit Sandbox.host choice).result session.game with ⟨fault | outcome, after⟩
  · rw [hgame] at h
    cases h
  · rw [hgame] at h hsubmission
    cases h
    exact hsubmission.indexing_eq

end Session

namespace Command

/-! ## What a command writes -/

/-- What the indices mean in the game of a command: a start says it, and a choice finds it in the
file that it reads. -/
def indexing? (d : Disk) : Command → Option Indexing
  | start _ _ visible _ => some (if visible then .visible else .declared)
  | choose stateIn _ _ => (SavedGame.read d stateIn).toOption.map (·.snapshot.indexing)
  | _ => none

/-- How a command ends that is to save the game at a path: what it writes out, and the disk it
leaves. -/
inductive Concluded (d : Disk) (command : Command) (path : String) : Output × Disk → Prop
  /-- It fails, and every file is as it was. -/
  | failed {d' : Disk} (fault : Fault) (files : ChangesOnly [] d.root d'.root) :
    Concluded d command path (outputOf (.error fault), d')
  /-- The dialogue has ended, and the disk is as it was. -/
  | ended (host : Sandbox.State) :
    Concluded d command path (outputOf (.ok (boundaryLines .finished host none)), d)
  /-- There is something to choose, and the game is in the file at the path, which leads to one
  place; every other file is as it was. The saved game is at the label that was told, on the state
  that was told, and its indices mean what the command says. -/
  | offered {d' : Disk} {place : List String} {saved : SavedGame} {play : Playthrough}
    {label prompt : String} {choices : List (Nat × String)}
    (boundary : play.boundary = .choices label prompt choices)
    (located : d'.locate? path = some place) (files : ChangesOnly [place] d.root d'.root)
    (file : d'.bytes? path = some saved.text.toUTF8) (schema : saved.schema = SavedGame.currentSchema)
    (snapshot : saved.snapshot = ⟨snapshotSchema, some label, play.indexing⟩)
    (indexing : command.indexing? d = some play.indexing) :
    Concluded d command path
      (outputOf (.ok (boundaryLines (.choices label prompt choices) saved.host (some path))), d')

theorem report_of_unwritten {session : Session} (h : session.boundary ≠ .finished) {path : String}
    {d d' : Disk} {fault : Fault} (hsave : (session.saved.write path).result d = (.error fault, d')) :
    (report session path).result d = (.error fault, d') := by
  unfold report
  cases hboundary : session.boundary with
  | finished => exact absurd hboundary h
  | choices label prompt choices => exact Action.result_bind_of_error hsave

/-- A session that offers choices is saved at the label it shows. -/
theorem snapshot_of_boundary {play : Playthrough} {label prompt : String}
    {choices : List (Nat × String)} (h : play.boundary = .choices label prompt choices) :
    play.snapshot = ⟨snapshotSchema, some label, play.indexing⟩ := by
  obtain ⟨view, hview, rfl⟩ := Playthrough.view_of_boundary h
  unfold Playthrough.snapshot
  rw [hview]
  rfl

/-- A command that reports a session, or the fault there is instead, concludes. -/
theorem concluded_of_reporting {d : Disk} (hcurrent : d.HasCurrent) {command : Command} {path : String}
    {result : Except Fault Session}
    (hmode : ∀ session, result = .ok session → command.indexing? d = some session.game.play.indexing) :
    Concluded d command path (outputWithDisk d (reporting result path)) := by
  cases result with
  | error fault => exact .failed fault (.refl [] d.root)
  | ok session =>
    show Concluded d command path (outputWithDisk d (report session path))
    unfold outputWithDisk
    by_cases hended : session.boundary = .finished
    · rw [report_of_finished hended]
      exact .ended _
    · rcases session.saved.write_cases hcurrent path with
        ⟨fault, d', hsave, hfiles⟩ | ⟨d', place, hsave, hplace, hfiles⟩
      · rw [report_of_unwritten hended hsave]
        exact .failed fault hfiles
      · rw [report_of_choices hended hsave]
        cases hboundary : session.boundary with
        | finished => exact absurd hboundary hended
        | choices label prompt choices =>
          have hfile : d'.bytes? path = some session.saved.text.toUTF8 := by
            unfold Disk.bytes?
            rw [SavedGame.find?_of_written hsave]
          have hplay : session.game.play.boundary = .choices label prompt choices := hboundary
          have hsnapshot : session.saved.snapshot = _ := snapshot_of_boundary hplay
          have hoffered : Concluded d command path (outputOf (.ok
              (boundaryLines (.choices label prompt choices) session.saved.host (some path))), d') :=
            .offered hplay hplace hfiles hfile rfl hsnapshot (hmode session rfl)
          exact hoffered

/-- **An agent's command writes only where there is something to choose.** On any disk whose current
folder is there, a command that is to save the game at a path leaves every file as it was if it fails
or the dialogue has ended. Otherwise it changes the file at that path, even if it is the one that the
command has read, and no other; the file holds the game at the label that was told, with the state
that was told and the command's meaning of indices. -/
theorem state_file_only_at_choices {d : Disk} (hcurrent : d.HasCurrent) {args : List String}
    {command : Command} (hargs : ofArguments args = .ok command) {path : String}
    (hpath : command.stateOut? = some path) (input : String) :
    Concluded d command path (runArguments d args input) := by
  unfold runArguments
  rw [hargs]
  dsimp only
  cases command with
  | start scripts vars visible stateOut =>
    cases hpath
    show Concluded d _ _ (run d "" (start scripts vars visible path))
    rw [run_start]
    refine concluded_of_reporting hcurrent fun session hopened => ?_
    obtain ⟨given, -, hopened⟩ := bind_eq_ok.mp hopened
    obtain ⟨scenario, -, hcreate⟩ := bind_eq_ok.mp hopened
    rw [Session.indexing_created hcreate]
    rfl
  | choose stateIn choice stateOut =>
    cases hpath
    show Concluded d _ _ (run d "" (choose stateIn choice path))
    rw [run_choose]
    refine concluded_of_reporting hcurrent fun session hsubmitted => ?_
    obtain ⟨loaded, hloaded, hsubmitted⟩ := bind_eq_ok.mp hsubmitted
    obtain ⟨saved, hread, hloaded⟩ := bind_eq_ok.mp hloaded
    obtain ⟨scenario, -, hresume⟩ := bind_eq_ok.mp hloaded
    rw [Session.indexing_submitted hsubmitted, Session.indexing_resumed hresume]
    show (SavedGame.read d stateIn).toOption.map (fun saved => saved.snapshot.indexing) = _
    rw [hread]
    rfl
  | play => cases hpath
  | check => cases hpath
  | dump => cases hpath

/-- A start on a disk with one script. -/
theorem state_file_of_doubling :
    let args := ["agent", "start", "--scripts-dir", "demo", "--var", "x=1", "--state-out", "save.json"]
    ofArguments args = .ok (start "demo" ["x=1"] false "save.json") ∧
    Concluded (doublingDisk none) (start "demo" ["x=1"] false "save.json") "save.json"
      (runArguments (doublingDisk none) args "") := by
  intro args
  have hargs : ofArguments args = .ok (start "demo" ["x=1"] false "save.json") := by
    decide +kernel
  exact ⟨hargs, state_file_only_at_choices ⟨_, rfl⟩ hargs rfl ""⟩

end Command

end Colloquy
