import Colloquy.Command.Run
import Colloquy.Proofs.Scenario
import Colloquy.Proofs.Session.Load
import Mathlib.Data.List.Forall2

/-!
# Playing through the agent's files

An agent plays by one command per choice: the first starts a game and saves it, each later one
loads what the one before saved, submits its choice and saves again (`Command.agentRun`). Between
two commands only the files are left. In one process the same choices are submitted to one session,
until a submission fails or the dialogue ends (`Session.played`).

The invariant of the run is that the file which the next command reads loads as the session in the
process (`loadFile_of_saved`): a session comes back from its file as it was as long as its numbers
do, and its scenario is found again by its name as long as the files of the scenario are as they
were. A command on such a file reports what one submission gives (`run_choose`), and what is reported
is told and saved (`tells_of_reporting`), which hands the invariant on to the next command. Main
statement, `Command.agent_plays_as_one_process`: command by command the agent is told what the
process would have told, the same faults included, and finds the game in its file.
-/

namespace Colloquy

/-- Whatever is to be written at a path, the folder for it can be made and the file written. -/
def Disk.Accepts (d : Disk) (path : String) : Prop :=
  (d.makeParent path).2 = true ∧
    ∀ content, ((d.makeParent path).1.writeFile path content).isSome = true

theorem SavedGame.write_of_accepts {d : Disk} {path : String} (h : d.Accepts path) (s : SavedGame) :
    ∃ d', (s.write path).result d = (.ok (), d') := by
  obtain ⟨hmade, hwritten⟩ := h
  obtain ⟨d', hwrite⟩ := Option.isSome_iff_exists.mp (hwritten s.text.toUTF8)
  refine ⟨d', ?_⟩
  unfold write
  rw [Action.result_bind_of_ok (Action.result_get d)]
  generalize d.makeParent path = parent at hmade hwrite
  obtain ⟨folders, made⟩ := parent
  obtain rfl : made = true := hmade
  dsimp only at hwrite ⊢
  rw [Action.result_bind_of_ok (Action.result_set d folders), if_pos rfl, hwrite]
  rfl

namespace Session

/-! ## Playing in one process -/

/-- A fresh session with the options of a start. -/
def opened (d : Disk) (scripts : String) (vars : List String) (visible : Bool) :
    Except Fault Session := do
  let vars ← vars.mapM parseVar
  let scenario ← Scenario.load d scripts
  create (scenario.withVars vars) (if visible then .visible else .declared)

/-- The session after a submission, if that succeeds. -/
def submitted (session : Session) (choice : Nat) : Except Fault Session :=
  match (submit choice).result session with
  | (.ok _, session) => .ok session
  | (.error fault, _) => .error fault

/-- A session, or the fault there is instead, and what submissions make of it, up to the first that
fails or ends the dialogue. -/
def playFrom : List Nat → Except Fault Session → List (Except Fault Session)
  | [], result => [result]
  | choice :: rest, result => result :: match result with
    | .ok session =>
      if session.boundary = .finished then [] else playFrom rest (session.submitted choice)
    | .error _ => []

/-- A game stops, or the next choice is submitted to the session that goes on. -/
theorem playFrom_cases (choices : List Nat) (result : Except Fault Session) :
    playFrom choices result = [result] ∨ ∃ choice rest session, choices = choice :: rest ∧
      result = .ok session ∧ session.boundary ≠ .finished ∧
      playFrom choices result = result :: playFrom rest (session.submitted choice) := by
  cases choices with
  | nil => exact .inl rfl
  | cons choice rest =>
    cases result with
    | error fault => exact .inl rfl
    | ok session =>
      have hplay : playFrom (choice :: rest) (.ok session) = .ok session ::
          if session.boundary = .finished then [] else playFrom rest (session.submitted choice) := rfl
      rw [hplay]
      by_cases hboundary : session.boundary = .finished
      · rw [if_pos hboundary]
        exact .inl rfl
      · rw [if_neg hboundary]
        exact .inr ⟨choice, rest, session, rfl, rfl, hboundary, rfl⟩

/-- A game in one process: the fresh session, and then what each submission gives. -/
def played (d : Disk) (scripts : String) (vars : List String) (visible : Bool) (choices : List Nat) :
    List (Except Fault Session) :=
  playFrom choices (opened d scripts vars visible)

theorem Of.submitted {s : Scenario} {session session' : Session} {choice : Nat} (h : Of s session)
    (hsubmitted : session.submitted choice = .ok session') : Of s session' := by
  have hof := h.submit choice
  unfold Session.submitted at hsubmitted
  split at hsubmitted
  · next outcome after hresult =>
    rw [hresult] at hof
    cases hsubmitted
    exact hof
  · cases hsubmitted

/-- A session of the scenario in a scripts folder of a disk, whatever variables it started with. -/
def OfFolder (d : Disk) (scripts : String) (session : Session) : Prop :=
  ∃ scenario vars, Scenario.load d scripts = .ok scenario ∧ Of (scenario.withVars vars) session

theorem ofFolder_of_opened {d : Disk} {scripts : String} {vars : List String} {visible : Bool}
    {session : Session} (h : opened d scripts vars visible = .ok session) :
    OfFolder d scripts session := by
  obtain ⟨given, -, h⟩ := bind_eq_ok.mp h
  obtain ⟨scenario, hload, hcreate⟩ := bind_eq_ok.mp h
  exact ⟨scenario, given, hload, of_created hcreate⟩

theorem OfFolder.submitted {d : Disk} {scripts : String} {session session' : Session} {choice : Nat}
    (h : OfFolder d scripts session) (hsubmitted : session.submitted choice = .ok session') :
    OfFolder d scripts session' := by
  obtain ⟨scenario, vars, hload, hof⟩ := h
  exact ⟨scenario, vars, hload, hof.submitted hsubmitted⟩

/-- A session comes back from its file as it was, if its numbers do and the files of its scenario
are as they were. -/
theorem OfFolder.loadFile_of_saved {d₀ d d' : Disk} {scripts : String} {session : Session}
    (h : OfFolder d₀ scripts session) {path : String}
    (hsave : (session.saved.write path).result d = (.ok (), d'))
    (hreads : ∀ x ∈ session.game.host.numbers, Json.ReadsBack x)
    (hkept : Scenario.Kept (Scenario.folderPath d₀ scripts) d₀ d') :
    loadFile d' path = .ok session := by
  obtain ⟨scenario, vars, hload, hof⟩ := h
  have hid : session.saved.scenarioId = scenario.id := hof.scenarioId
  unfold loadFile
  rw [read_of_saved hsave hreads]
  show (Scenario.loadById d' session.saved.scenarioId >>= fun found => resume found session.saved) = _
  rw [hid, Scenario.loadById_of_load hload hkept]
  exact hof.resume_saved

end Session

namespace Command

/-! ## Playing by commands -/

/-- A command that was run, with what it wrote and the disk it left. -/
structure Exchange where
  before : Disk
  command : Command
  output : Output
  after : Disk

/-- Runs a command on a disk. -/
def exchange (d : Disk) (command : Command) : Exchange :=
  ⟨d, command, (run d "" command).1, (run d "" command).2⟩

/-- Runs commands one after the other, each on the disk that the one before left. -/
def runAll : Disk → List Command → List Exchange
  | _, [] => []
  | d, command :: rest => exchange d command :: runAll (exchange d command).after rest

/-- The file that a command is to save the game in. -/
def stateOut? : Command → Option String
  | start _ _ _ stateOut => some stateOut
  | choose _ _ stateOut => some stateOut
  | _ => none

/-- One command for each choice, reading the file that the one before was to write. -/
def chooses : String → List (Nat × String) → List Command
  | _, [] => []
  | stateIn, (choice, stateOut) :: rest => choose stateIn choice stateOut :: chooses stateOut rest

/-- A game by commands: a start, and then one command for each choice, as long as the game goes on
in one process. -/
def agentRun (d : Disk) (scripts : String) (vars : List String) (visible : Bool) (stateOut : String)
    (choices : List (Nat × String)) : List Exchange :=
  (runAll d (start scripts vars visible stateOut :: chooses stateOut choices)).take
    (Session.played d scripts vars visible (choices.map (·.1))).length

/-- A command tells what the process has: the fault that there is instead of a session, or where the
session stands and the state of its sandbox; and unless the dialogue has ended, it leaves the session
in its file. -/
inductive Tells : Except Fault Session → Exchange → Prop
  | failed {e : Exchange} (fault : Fault) (output : e.output = outputOf (.error fault)) :
    Tells (.error fault) e
  | ended {e : Exchange} {session : Session} (boundary : session.boundary = .finished)
    (output : e.output = outputOf (.ok (boundaryLines .finished session.game.host none))) :
    Tells (.ok session) e
  | offered {e : Exchange} {session : Session} {path : String}
    (boundary : session.boundary ≠ .finished) (file : e.command.stateOut? = some path)
    (output : e.output
      = outputOf (.ok (boundaryLines session.boundary session.game.host (some path))))
    (loads : Session.loadFile e.after path = .ok session) : Tells (.ok session) e

theorem report_of_finished {session : Session} (h : session.boundary = .finished) (path : String)
    (d : Disk) :
    (report session path).result d = (.ok (boundaryLines .finished session.game.host none), d) := by
  unfold report
  rw [h]
  rfl

theorem report_of_choices {session : Session} (h : session.boundary ≠ .finished) {path : String}
    {d d' : Disk} (hsave : (session.saved.write path).result d = (.ok (), d')) :
    (report session path).result d
      = (.ok (boundaryLines session.boundary session.game.host (some path)), d') := by
  unfold report
  cases hboundary : session.boundary with
  | finished => exact absurd hboundary h
  | choices label prompt choices =>
    dsimp only
    rw [Action.result_bind_of_ok hsave]
    rfl

/-- Reports a session, or fails with the fault there is instead. -/
def reporting (result : Except Fault Session) (path : String) : Action Disk (List String) := do
  report (← Action.ofExcept result) path

theorem reporting_ok (session : Session) (path : String) (d : Disk) :
    (reporting (.ok session) path).result d = (report session path).result d := rfl

/-- A start reports the session it opens. -/
theorem run_start (d : Disk) (scripts : String) (vars : List String) (visible : Bool)
    (path : String) : run d "" (start scripts vars visible path)
      = outputWithDisk d (reporting (Session.opened d scripts vars visible) path) := by
  have hresult : (runStart scripts vars visible path).result d
      = (reporting (Session.opened d scripts vars visible) path).result d := by
    unfold runStart Session.opened
    rw [Action.result_ofExcept_bind]
    cases vars.mapM parseVar with
    | error fault => rfl
    | ok given =>
      dsimp only
      rw [Action.result_bind_of_ok (Action.result_get d), Action.result_ofExcept_bind]
      cases Scenario.load d scripts with
      | error fault => rfl
      | ok scenario => rfl
  show outputWithDisk d (runStart scripts vars visible path) = _
  unfold outputWithDisk
  rw [hresult]

/-- A choice is submitted to the session of the file, and the session after it is reported. -/
theorem run_choose (d : Disk) (stateIn : String) (choice : Nat) (path : String) :
    run d "" (choose stateIn choice path) = outputWithDisk d
      (reporting (Session.loadFile d stateIn >>= fun session => session.submitted choice) path) := by
  have hresult : (runChoose stateIn choice path).result d = (reporting
      (Session.loadFile d stateIn >>= fun session => session.submitted choice) path).result d := by
    unfold runChoose
    rw [Action.result_bind_of_ok (Action.result_get d), Action.result_ofExcept_bind]
    cases Session.loadFile d stateIn with
    | error fault => rfl
    | ok session =>
      show _ = (reporting (session.submitted choice) path).result d
      unfold Session.submitted
      dsimp only
      rcases (Session.submit choice).result session with ⟨fault | outcome, after⟩
      · rfl
      · rfl
  show outputWithDisk d (runChoose stateIn choice path) = _
  unfold outputWithDisk
  rw [hresult]

/-! ## The two side by side -/

/-- What the comparison rests on: after each command the files of the scenario are as they were on
the first disk, each state file can be written, and the numbers of each session are read as they
were written. -/
structure Undisturbed (d₀ : Disk) (scripts : String) (results : List (Except Fault Session))
    (exchanges : List Exchange) : Prop where
  kept : ∀ e ∈ exchanges, Scenario.Kept (Scenario.folderPath d₀ scripts) d₀ e.after
  accepts : ∀ e ∈ exchanges, ∀ path, e.command.stateOut? = some path → e.before.Accepts path
  reads : ∀ session, .ok session ∈ results → ∀ x ∈ session.game.host.numbers, Json.ReadsBack x

theorem Undisturbed.tail {d₀ : Disk} {scripts : String} {result : Except Fault Session}
    {results : List (Except Fault Session)} {e : Exchange} {exchanges : List Exchange}
    (h : Undisturbed d₀ scripts (result :: results) (e :: exchanges)) :
    Undisturbed d₀ scripts results exchanges where
  kept other hother := h.kept other (List.mem_cons_of_mem _ hother)
  accepts other hother := h.accepts other (List.mem_cons_of_mem _ hother)
  reads session hsession := h.reads session (List.mem_cons_of_mem _ hsession)

/-- A command that reports what the process has tells it. -/
theorem tells_of_reporting {d₀ d : Disk} {scripts : String} {command : Command} {path : String}
    {result : Except Fault Session} {results : List (Except Fault Session)}
    {exchanges : List Exchange} (hrun : run d "" command = outputWithDisk d (reporting result path))
    (hfile : command.stateOut? = some path)
    (hof : ∀ session, result = .ok session → Session.OfFolder d₀ scripts session)
    (h : Undisturbed d₀ scripts (result :: results) (exchange d command :: exchanges)) :
    Tells result (exchange d command) := by
  have hkept := h.kept _ (List.mem_cons_self ..)
  have hexchange : exchange d command = ⟨d, command, outputOf ((reporting result path).result d).1,
      ((reporting result path).result d).2⟩ := by
    unfold exchange
    rw [hrun]
    rfl
  rw [hexchange] at hkept ⊢
  cases result with
  | error fault => exact .failed fault rfl
  | ok session =>
    rw [reporting_ok] at hkept ⊢
    by_cases hboundary : session.boundary = .finished
    · refine .ended hboundary ?_
      rw [report_of_finished hboundary]
    · have haccepts : d.Accepts path := h.accepts _ (List.mem_cons_self ..) path hfile
      obtain ⟨d', hsave⟩ := session.saved.write_of_accepts haccepts
      have hreads := h.reads session (List.mem_cons_self ..)
      rw [report_of_choices hboundary hsave] at hkept ⊢
      exact .offered hboundary hfile rfl ((hof session rfl).loadFile_of_saved hsave hreads hkept)

/-- Commands tell what the process has from a command on that reports what it has. -/
theorem tells_playFrom {d₀ : Disk} {scripts : String} : ∀ {choices : List (Nat × String)} {d : Disk}
    {command : Command} {path : String} {result : Except Fault Session},
    run d "" command = outputWithDisk d (reporting result path) →
    command.stateOut? = some path →
    (∀ session, result = .ok session → Session.OfFolder d₀ scripts session) →
    let results := Session.playFrom (choices.map (·.1)) result
    let exchanges := (runAll d (command :: chooses path choices)).take results.length
    Undisturbed d₀ scripts results exchanges → List.Forall₂ Tells results exchanges := by
  intro choices
  induction choices with
  | nil =>
    intro d command path result hrun hfile hof results exchanges h
    exact .cons (tells_of_reporting hrun hfile hof h) .nil
  | cons step rest ih =>
    obtain ⟨choice, next⟩ := step
    intro d command path result hrun hfile hof results exchanges h
    have hexchanges : exchanges
      = (runAll d (command :: choose path choice next :: chooses next rest)).take results.length := rfl
    rcases Session.playFrom_cases (choice :: rest.map (·.1)) result with
      hstop | ⟨_, _, session, hchoices, rfl, hboundary, hgoes⟩
    · have hresults : results = [result] := hstop
      rw [hexchanges, hresults] at h ⊢
      exact .cons (tells_of_reporting hrun hfile hof h) .nil
    · cases hchoices
      have hresults : results
        = .ok session :: Session.playFrom (rest.map (·.1)) (session.submitted choice) := hgoes
      rw [hexchanges, hresults] at h ⊢
      have htells := tells_of_reporting hrun hfile hof h
      -- the file of this command is the one that the next command reads
      have hloaded : Session.loadFile (exchange d command).after path = .ok session := by
        cases htells with
        | ended hfinished => exact absurd hfinished hboundary
        | offered _ hfile' _ hloaded =>
          obtain rfl : _ = path := Option.some.inj (hfile'.symm.trans hfile)
          exact hloaded
      have hnext := run_choose (exchange d command).after path choice next
      rw [hloaded] at hnext
      exact .cons htells (ih hnext rfl (fun _ => (hof session rfl).submitted) h.tail)

/-- **The agent plays as one process.** Let the scenario's files stay as they were, let every state
file be one that can be written, and let every number that a session of the process has be finite and
read as it was written. Then, up to the first submission that fails or the end of the dialogue, each
command tells what the process has at that point: the same fault, or the same boundary and state of
the sandbox, and then the file that the next command reads loads as the session of the process. -/
theorem agent_plays_as_one_process {d : Disk} {scripts : String} {vars : List String}
    {visible : Bool} {stateOut : String} {choices : List (Nat × String)}
    (unchanged : ∀ e ∈ agentRun d scripts vars visible stateOut choices,
      Scenario.Kept (Scenario.folderPath d scripts) d e.after)
    (writable : ∀ e ∈ agentRun d scripts vars visible stateOut choices,
      ∀ path, e.command.stateOut? = some path → e.before.Accepts path)
    (finite : ∀ session, .ok session ∈ Session.played d scripts vars visible (choices.map (·.1)) →
      ∀ x ∈ session.game.host.numbers, Binary64.isFinite x = true)
    (readsBack : ∀ session, .ok session ∈ Session.played d scripts vars visible (choices.map (·.1)) →
      ∀ x ∈ session.game.host.numbers, Binary64.isFinite x = true → Json.ReadsBack x) :
    List.Forall₂ Tells (Session.played d scripts vars visible (choices.map (·.1)))
      (agentRun d scripts vars visible stateOut choices) := by
  have hreads : ∀ session,
      .ok session ∈ Session.played d scripts vars visible (choices.map (·.1)) →
      ∀ x ∈ session.game.host.numbers, Json.ReadsBack x :=
    fun session h x hx => readsBack session h x hx (finite session h x hx)
  have hstart := run_start d scripts vars visible stateOut
  exact tells_playFrom hstart rfl (fun _ => Session.ofFolder_of_opened) ⟨unchanged, writable, hreads⟩

/-! ## A number that doubles, by commands -/

/-- What a command makes of a disk holds after each of the commands if it held before them. -/
theorem runAll_keeps {P : Disk → Prop} {commands : List Command}
    (step : ∀ command ∈ commands, ∀ d, P d → P (exchange d command).after) :
    ∀ {d : Disk}, P d → ∀ e ∈ runAll d commands, e.command ∈ commands ∧ P e.before ∧ P e.after := by
  induction commands with
  | nil =>
    intro d _ e he
    cases he
  | cons command rest ih =>
    intro d hd e he
    have hnext := step command (List.mem_cons_self ..) d hd
    rcases List.mem_cons.mp he with rfl | he
    · exact ⟨List.mem_cons_self .., hd, hnext⟩
    · obtain ⟨hcommand, hkept⟩ :=
        ih (fun command hcommand => step command (List.mem_cons_of_mem _ hcommand)) hnext e he
      exact ⟨List.mem_cons_of_mem _ hcommand, hkept⟩

/-- A disk with the script that doubles a variable, and perhaps with a file for saved games. -/
def doublingDisk (save : Option ByteArray) : Disk :=
  ⟨.folder (("demo", .folder [("main.dlg", .file Session.doublingScript.toUTF8)]) ::
    (save.map fun content => ("save.json", FileTree.file content)).toList), []⟩

theorem accepts_doublingDisk (save : Option ByteArray) :
    (doublingDisk save).Accepts "save.json" := by
  cases save with
  | none => exact ⟨rfl, fun _ => rfl⟩
  | some content => exact ⟨rfl, fun _ => rfl⟩

theorem kept_doublingDisk (save : Option ByteArray) :
    Scenario.Kept (Scenario.folderPath (doublingDisk none) "demo") (doublingDisk none)
      (doublingDisk save) := by
  cases save with
  | none => exact ⟨fun _ h => ⟨_, h⟩, rfl, rfl⟩
  | some content => exact ⟨fun _ _ => ⟨_, rfl⟩, rfl, rfl⟩

/-- What is reported is saved in the one file. -/
theorem reporting_to_doublingDisk (result : Except Fault Session) (save : Option ByteArray) :
    ∃ save', ((reporting result "save.json").result (doublingDisk save)).2 = doublingDisk save' := by
  cases result with
  | error fault => exact ⟨save, rfl⟩
  | ok session =>
    rw [reporting_ok]
    by_cases hboundary : session.boundary = .finished
    · exact ⟨save, by rw [report_of_finished hboundary]⟩
    · have hsave : (session.saved.write "save.json").result (doublingDisk save)
          = (.ok (), doublingDisk (some session.saved.text.toUTF8)) := by
        cases save with
        | none => rfl
        | some content => rfl
      exact ⟨_, by rw [report_of_choices hboundary hsave]⟩

theorem load_doublingDisk : Scenario.load (doublingDisk none) "demo"
    = .ok ⟨"scripts-dir:/demo", "Scripts demo", .ofList [("main.dlg", Session.doublingScript)],
      .empty⟩ := by
  have hscripts : Scenario.scriptsOf? "/demo" (((doublingDisk none).find? "/demo").getD (.folder []))
      = some (.ofList [("main.dlg", Session.doublingScript)]) := Session.scriptsOf?_doublingFolder _
  have hread : Scenario.readScripts (doublingDisk none) "/demo"
      = .ok (.ofList [("main.dlg", Session.doublingScript)]) := by
    unfold Scenario.readScripts
    rw [hscripts]
    rfl
  exact bind_eq_ok.mpr ⟨"/demo", rfl, bind_eq_ok.mpr ⟨_, hread, rfl⟩⟩

theorem mapM_parseVar_doubling : ["x=1"].mapM parseVar = .ok [("x", 1)] := by
  obtain ⟨x, hvars, rfl⟩ : ∃ x, ["x=1"].mapM parseVar = .ok [("x", x)] ∧ x = 1 :=
    ⟨_, rfl, by decide +kernel⟩
  exact hvars

theorem opened_doublingDisk :
    Session.opened (doublingDisk none) "demo" ["x=1"] false = .ok (Session.doublingSession 1) :=
  bind_eq_ok.mpr ⟨_, mapM_parseVar_doubling, bind_eq_ok.mpr ⟨_, load_doublingDisk,
    Session.create_doublingScenario 1⟩⟩

theorem preparePlay_doublingDisk :
    preparePlay (doublingDisk none) "demo" (some "save.json") ["x=1"]
      = .ok (⟨Session.doublingScenario 1, "save.json"⟩,
        ⟨Session.doublingSession 1, doublingDisk none⟩) :=
  bind_eq_ok.mpr ⟨_, load_doublingDisk, bind_eq_ok.mpr ⟨_, mapM_parseVar_doubling,
    bind_eq_ok.mpr ⟨_, Session.create_doublingScenario 1, rfl⟩⟩⟩

/-- A choice that doubles the variable, and one that is not there. -/
def doublingChoices : List (Nat × String) := [(0, "save.json"), (7, "save.json")]

/-- The commands work on the one disk and its file for saved games. -/
theorem agentRun_on_doublingDisk {e : Exchange}
    (he : e ∈ agentRun (doublingDisk none) "demo" ["x=1"] false "save.json" doublingChoices) :
    e.command.stateOut? = some "save.json" ∧ (∃ save, e.before = doublingDisk save) ∧
      ∃ save, e.after = doublingDisk save := by
  have hcommands : ∀ command ∈ start "demo" ["x=1"] false "save.json" ::
        chooses "save.json" doublingChoices, command.stateOut? = some "save.json" ∧
      ∀ d, ∃ result, run d "" command = outputWithDisk d (reporting result "save.json") := by
    intro command hcommand
    simp only [doublingChoices, chooses, List.mem_cons, List.not_mem_nil, or_false] at hcommand
    rcases hcommand with rfl | rfl | rfl
    · exact ⟨rfl, fun d => ⟨_, run_start d ..⟩⟩
    · exact ⟨rfl, fun d => ⟨_, run_choose d ..⟩⟩
    · exact ⟨rfl, fun d => ⟨_, run_choose d ..⟩⟩
  have hstep : ∀ command ∈ start "demo" ["x=1"] false "save.json" ::
        chooses "save.json" doublingChoices, ∀ d, (∃ save, d = doublingDisk save) →
      ∃ save, (exchange d command).after = doublingDisk save := by
    rintro command hcommand _ ⟨save, rfl⟩
    obtain ⟨result, hrun⟩ := (hcommands command hcommand).2 (doublingDisk save)
    obtain ⟨save', hsave'⟩ := reporting_to_doublingDisk result save
    refine ⟨save', ?_⟩
    show (run (doublingDisk save) "" command).2 = _
    rw [hrun]
    exact hsave'
  obtain ⟨hcommand, hdisks⟩ := runAll_keeps hstep ⟨none, rfl⟩ e (List.mem_of_mem_take he)
  exact ⟨(hcommands _ hcommand).1, hdisks⟩

/-- The agent starts, doubles the variable, and fails at the choice that is not there, as the process
does. -/
theorem agent_plays_doubling :
    (Session.played (doublingDisk none) "demo" ["x=1"] false (doublingChoices.map (·.1))).length = 3 ∧
    List.Forall₂ Tells
      (Session.played (doublingDisk none) "demo" ["x=1"] false (doublingChoices.map (·.1)))
      (agentRun (doublingDisk none) "demo" ["x=1"] false "save.json" doublingChoices) := by
  have hplayed : Session.played (doublingDisk none) "demo" ["x=1"] false (doublingChoices.map (·.1))
      = Session.playFrom [0, 7] (.ok (Session.doublingSession 1)) := by
    unfold Session.played
    rw [opened_doublingDisk]
    rfl
  have hnumbers : ∀ session, .ok session ∈
        Session.played (doublingDisk none) "demo" ["x=1"] false (doublingChoices.map (·.1)) →
      ∀ x ∈ session.game.host.numbers, Binary64.isFinite x = true ∧ Json.ReadsBack x := by
    rw [hplayed]
    have hall : (Session.playFrom [0, 7] (.ok (Session.doublingSession 1))).all (fun result =>
        result.toOption.all fun session => session.game.host.numbers.all fun x =>
          Binary64.isFinite x && decide (Json.ReadsBack x)) = true := by decide +kernel
    intro session hsession x hx
    have hsessions := List.all_eq_true.mp hall _ hsession
    simpa using List.all_eq_true.mp hsessions x hx
  refine ⟨?_, agent_plays_as_one_process ?_ ?_ ?_ ?_⟩
  · rw [hplayed]
    decide +kernel
  · intro e he
    obtain ⟨-, -, save, hafter⟩ := agentRun_on_doublingDisk he
    rw [hafter]
    exact kept_doublingDisk save
  · intro e he path hpath
    obtain ⟨hfile, ⟨save, hbefore⟩, -⟩ := agentRun_on_doublingDisk he
    obtain rfl : path = "save.json" := Option.some.inj (hpath.symm.trans hfile)
    rw [hbefore]
    exact accepts_doublingDisk save
  · exact fun session hsession x hx => (hnumbers session hsession x hx).1
  · exact fun session hsession x hx _ => (hnumbers session hsession x hx).2

end Command

end Colloquy
