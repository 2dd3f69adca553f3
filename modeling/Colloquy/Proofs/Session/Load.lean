import Colloquy.Proofs.Sandbox.Resume
import Colloquy.Proofs.Session.SavedGame

/-!
# A saved game can be loaded

A session that was created for a scenario stays one of that scenario, whatever is submitted
(`Session.Of`): it plays the dialogue of the scenario's scripts and shows nothing stale. Main
statement, `Session.load_of_saved`: where such a session was saved, it is loaded as it was just when
every number of its sandbox is read as it was written. Loading goes wrong only by the numbers: where
they can all be read it comes back to the same place, with the numbers as they were read, and where
one is not finite the file is refused.
-/

namespace Colloquy

namespace Sandbox

/-- On other numbers a current game is resumed at its place. -/
theorem Current.resume_of_names {game : Game State} (hcurrent : Current game)
    (hfiled : game.play.dialogue.labels.FiledByName) {t : State}
    (hnames : t.vars.names = game.host.vars.names) :
    ∃ play, (Playthrough.resume host game.play.dialogue game.play.snapshot).result t = (.ok play, t) ∧
      play.snapshot = game.play.snapshot := by
  rw [Playthrough.resume_of_accepted hcurrent.snapshot_accepted]
  cases hview : game.play.view with
  | none =>
    refine ⟨⟨game.play.dialogue, game.play.indexing, none⟩, ?_, ?_⟩
    · unfold Playthrough.snapshot
      rw [hview]
      rfl
    · unfold Playthrough.snapshot
      rw [hview]
  | some view =>
    -- the label was built before, and whether it is goes by the names of the variables
    have hbuilt := hcurrent view hview
    have hbuild : ∃ again, (Playthrough.build host game.play.dialogue view.label).result t
        = (.ok again, t) := by
      rcases build_of_names hnames.symm game.play.dialogue view.label with
        ⟨v, w, s', t', -, ht⟩ | ⟨fault, s', t', hs, -⟩
      · exact ⟨w, by rw [ht, (quiet.build ht).1]⟩
      · rw [hbuilt] at hs
        cases hs
    obtain ⟨again, hagain⟩ := hbuild
    obtain ⟨-, label, hlabel, hfresh⟩ := quiet.build hagain
    have hsame : again.label = view.label := by
      rw [hfresh, Playthrough.label_freshView]
      exact hfiled view.label label hlabel
    refine ⟨⟨game.play.dialogue, game.play.indexing, some again⟩, ?_, ?_⟩
    · unfold Playthrough.snapshot
      rw [hview]
      exact Action.result_bind_of_ok hagain
    · unfold Playthrough.snapshot
      rw [hview]
      show Snapshot.mk _ (some again.label) _ = _
      rw [hsame]
      rfl

theorem State.names_of_reread {s t : State} (h : s.reread? = some t) : t.vars.names = s.vars.names :=
  NameMap.names_mapValues? (State.reread?_eq_some.mp h).2

end Sandbox

/-- The label of a boundary is one that is shown. -/
theorem Playthrough.view_of_boundary {p : Playthrough} {label prompt : String}
    {choices : List (Nat × String)} (h : p.boundary = .choices label prompt choices) :
    ∃ view, p.view = some view ∧ view.label = label := by
  unfold boundary at h
  cases hview : p.view with
  | none =>
    rw [hview] at h
    cases h
  | some view =>
    rw [hview] at h
    cases h
    exact ⟨view, rfl, rfl⟩

namespace Session

open Sandbox (Current)

/-! ## Sessions of a scenario -/

theorem create_eq_ok {s : Scenario} {indexing : Indexing} {session : Session} :
    create s indexing = .ok session ↔ ∃ program play host,
      Program.ofSources false s.sources = .ok program ∧
      (Playthrough.start Sandbox.host program.dialogue indexing).result s.host = (.ok play, host) ∧
      session = ⟨s.id, ⟨play, host⟩⟩ := by
  unfold create
  rw [bind_eq_ok]
  constructor
  · rintro ⟨program, hprogram, h⟩
    split at h
    · next play host hstart => exact ⟨program, play, host, hprogram, hstart, (Except.ok.inj h).symm⟩
    · cases h
  · rintro ⟨program, play, host, hprogram, hstart, rfl⟩
    refine ⟨program, hprogram, ?_⟩
    rw [hstart]

theorem resume_eq_ok {s : Scenario} {saved : SavedGame} {session : Session} :
    resume s saved = .ok session ↔ ∃ program play host,
      Program.ofSources false s.sources = .ok program ∧
      (Playthrough.resume Sandbox.host program.dialogue saved.snapshot).result saved.host
        = (.ok play, host) ∧
      session = ⟨saved.scenarioId, ⟨play, host⟩⟩ := by
  unfold resume
  rw [bind_eq_ok]
  constructor
  · rintro ⟨program, hprogram, h⟩
    split at h
    · next play host hresume =>
      exact ⟨program, play, host, hprogram, hresume, (Except.ok.inj h).symm⟩
    · cases h
  · rintro ⟨program, play, host, hprogram, hresume, rfl⟩
    refine ⟨program, hprogram, ?_⟩
    rw [hresume]

/-- A session of a scenario: it has the scenario's name, plays the dialogue of its scripts and shows
what is so now. -/
structure Of (s : Scenario) (session : Session) : Prop where
  scenarioId : session.scenarioId = s.id
  program : ∃ program, Program.ofSources false s.sources = .ok program ∧
    session.game.play.dialogue = program.dialogue
  current : Current session.game

theorem Of.filed {s : Scenario} {session : Session} (h : Of s session) :
    session.game.play.dialogue.labels.FiledByName := by
  obtain ⟨program, hprogram, hdialogue⟩ := h.program
  rw [hdialogue]
  exact Program.filedByName_of_ofSources hprogram

theorem of_created {s : Scenario} {indexing : Indexing} {session : Session}
    (h : create s indexing = .ok session) : Of s session := by
  obtain ⟨program, play, host, hprogram, hstart, rfl⟩ := create_eq_ok.mp h
  obtain ⟨hdialogue, hcurrent⟩ :=
    Sandbox.current_started (Program.filedByName_of_ofSources hprogram) hstart
  exact ⟨rfl, ⟨program, hprogram, hdialogue⟩, hcurrent⟩

theorem of_resumed {s : Scenario} {saved : SavedGame} (hid : saved.scenarioId = s.id)
    {session : Session} (h : resume s saved = .ok session) : Of s session := by
  obtain ⟨program, play, host, hprogram, hresume, rfl⟩ := resume_eq_ok.mp h
  obtain ⟨hdialogue, hcurrent⟩ :=
    Sandbox.current_resumed (Program.filedByName_of_ofSources hprogram) hresume
  exact ⟨hid, ⟨program, hprogram, hdialogue⟩, hcurrent⟩

/-- The session after some submissions, each of which may have failed. -/
def submitAll (submissions : List Nat) (session : Session) : Session :=
  submissions.foldl (fun session index => ((submit index).result session).2) session

/-- A submission keeps a session one of its scenario, whether it fails or not. -/
theorem Of.submit {s : Scenario} {session : Session} (h : Of s session) (index : Nat) :
    Of s ((Session.submit index).result session).2 := by
  have hact : ((Game.act Sandbox.host (.submit index)).result session.game).2
      = ((Game.submit Sandbox.host index).result session.game).2 := by
    show ((Game.submit Sandbox.host index >>= fun outcome => pure (some outcome)).result _).2 = _
    rw [Action.result_bind_pure]
  obtain ⟨hkept, hcurrent⟩ := Sandbox.current_act h.filed h.current (.submit index)
  rw [hact] at hkept hcurrent
  obtain ⟨program, hprogram, hdialogue⟩ := h.program
  exact ⟨h.scenarioId, ⟨program, hprogram, hkept.trans hdialogue⟩, hcurrent⟩

theorem Of.submitAll {s : Scenario} (submissions : List Nat) :
    ∀ {session : Session}, Of s session → Of s (session.submitAll submissions) := by
  induction submissions with
  | nil => exact fun h => h
  | cons index rest ih => exact fun h => ih (h.submit index)

/-! ## Loading -/

/-- What is read from the file of a session is what was saved, if its numbers are. -/
theorem read_of_saved {session : Session} {path : String} {d d' : Disk}
    (hsave : (session.saved.write path).result d = (.ok (), d'))
    (hreads : ∀ x ∈ session.game.host.numbers, Json.ReadsBack x) :
    SavedGame.read d' path = .ok session.saved := by
  have hsaved : session.saved.reread? = some session.saved := by
    unfold SavedGame.reread?
    rw [show session.saved.host = session.game.host from rfl,
      Sandbox.State.reread?_eq_self_iff.mpr hreads]
    rfl
  have hread := SavedGame.read_of_written rfl hsave
  rw [hsaved] at hread
  exact hread

section Load

variable {s : Scenario} {session : Session} (h : Of s session)

include h

/-- What was saved, on other numbers, is resumed at its place. -/
theorem Of.resume_of_reread {host : Sandbox.State} (hread : session.game.host.reread? = some host) :
    ∃ play, resume s { session.saved with host } = .ok ⟨s.id, ⟨play, host⟩⟩ ∧
      play.snapshot = session.game.play.snapshot := by
  obtain ⟨program, hprogram, hdialogue⟩ := h.program
  obtain ⟨play, hresume, hplace⟩ :=
    h.current.resume_of_names h.filed (Sandbox.State.names_of_reread hread)
  rw [hdialogue] at hresume
  refine ⟨play, resume_eq_ok.mpr ⟨program, play, host, hprogram, hresume, ?_⟩, hplace⟩
  show _ = (⟨session.scenarioId, _⟩ : Session)
  rw [h.scenarioId]

/-- What was saved is resumed as it was. -/
theorem Of.resume_saved : resume s session.saved = .ok session := by
  obtain ⟨program, hprogram, hdialogue⟩ := h.program
  have hresume := h.current.resume
  rw [hdialogue] at hresume
  exact resume_eq_ok.mpr ⟨program, _, _, hprogram, hresume, rfl⟩

variable {path : String} {d d' : Disk} (hsave : (session.saved.write path).result d = (.ok (), d'))

include hsave

/-- A session is loaded from its file by resuming what its numbers are read as. -/
theorem Of.loadFor_of_saved : loadFor d' path s = match session.game.host.reread? with
    | some host => resume s { session.saved with host }
    | none => .error (Site.stateInvalid.faultAt path "not a saved game") := by
  have hread := SavedGame.read_of_written rfl hsave
  have hsaved : session.saved.reread?
      = session.game.host.reread?.map fun host => { session.saved with host } := rfl
  unfold loadFor
  rw [hread, hsaved]
  cases session.game.host.reread? with
  | none => rfl
  | some host => exact if_pos h.scenarioId

end Load

/-- **A saved game can be loaded** as far as its numbers can be read. Of a session created for a
scenario, after any submissions, whether they failed or not: once it was saved, loading gives it back
as it was just when every number of its sandbox is read as it was written; where they can all be read
it comes back to the same place, on the numbers as they were read; and where one of them is not
finite, the file is refused. -/
theorem load_of_saved {s : Scenario} {indexing : Indexing} {created : Session}
    (hcreate : create s indexing = .ok created) (submissions : List Nat) {path : String}
    {d d' : Disk}
    (hsave : ((created.submitAll submissions).saved.write path).result d = (.ok (), d')) :
    let session := created.submitAll submissions
    (loadFor d' path s = .ok session ↔ ∀ x ∈ session.game.host.numbers, Json.ReadsBack x) ∧
    (∀ host, session.game.host.reread? = some host → ∃ loaded, loadFor d' path s = .ok loaded ∧
      loaded.scenarioId = session.scenarioId ∧ loaded.game.host = host ∧
      loaded.game.play.snapshot = session.game.play.snapshot) ∧
    (∀ x ∈ session.game.host.numbers, Binary64.isFinite x = false →
      loadFor d' path s = .error (Site.stateInvalid.faultAt path "not a saved game")) := by
  intro session
  have hof : Of s session := (of_created hcreate).submitAll submissions
  have hload := hof.loadFor_of_saved hsave
  refine ⟨⟨fun hloaded => ?_, fun hreads => ?_⟩, fun host hread => ?_, fun x hx hinfinite => ?_⟩
  · -- what was loaded has the numbers as they were read
    rw [hload] at hloaded
    cases hread : session.game.host.reread? with
    | none =>
      rw [hread] at hloaded
      cases hloaded
    | some host =>
      rw [hread] at hloaded
      obtain ⟨play, hresume, -⟩ := hof.resume_of_reread hread
      have hsame : (⟨s.id, ⟨play, host⟩⟩ : Session) = session :=
        Except.ok.inj (hresume.symm.trans hloaded)
      have hhost : host = session.game.host := congrArg (fun session => session.game.host) hsame
      rw [hhost] at hread
      exact Sandbox.State.reread?_eq_self_iff.mp hread
  · rw [hload, Sandbox.State.reread?_eq_self_iff.mpr hreads]
    exact hof.resume_saved
  · obtain ⟨play, hresume, hplace⟩ := hof.resume_of_reread hread
    refine ⟨⟨s.id, ⟨play, host⟩⟩, ?_, hof.scenarioId.symm, rfl, hplace⟩
    rw [hload, hread]
    exact hresume
  · rw [hload, Sandbox.State.reread?_eq_none hx (Json.reread?_of_not_finite hinfinite)]

/-! ## A number that doubles -/

/-- A label that doubles a variable each time it is left. -/
def doublingScript : String :=
  "(label a (text \"A\") (after (body (set* x (+ x x))) jump a)) (start-dialogue a)"

def doublingForms : List Expr := [
  .list [.symbol "label", .symbol "a", .list [.symbol "text", .text "A"],
    .list [.symbol "after", .list [.symbol "body",
      .list [.symbol "set*", .symbol "x", .list [.symbol "+", .symbol "x", .symbol "x"]]],
      .symbol "jump", .symbol "a"]],
  .list [.symbol "start-dialogue", .symbol "a"]]

def doublingDialogue : Dialogue :=
  ⟨"a", .ofList [("a", ⟨"a", "A", none, some ⟨[.list [.symbol "set*", .symbol "x",
    .list [.symbol "+", .symbol "x", .symbol "x"]]], some "a"⟩⟩)]⟩

/-- The scenario of the script, with the variable to start from. -/
def doublingScenario (x : Float) : Scenario :=
  ⟨"scripts-dir:/demo", "Scripts demo", .ofList [("main.dlg", doublingScript)],
    ⟨.origin, .ofList [("x", x)]⟩⟩

/-- A fresh session of it. -/
def doublingSession (x : Float) : Session :=
  ⟨"scripts-dir:/demo", ⟨⟨doublingDialogue, .declared, some ⟨"a", "A", ["Continue..."], []⟩⟩,
    ⟨.origin, .ofList [("x", x)]⟩⟩⟩

theorem ofSources_doublingScript :
    Program.ofSources false (.ofList [("main.dlg", doublingScript)]) = .ok ⟨doublingDialogue, []⟩ := by
  have hread : readSource doublingScript = .ok doublingForms := by with_unfolding_all rfl
  refine Program.ofSources_eq_ok.mpr ⟨[doublingForms], ?_, rfl⟩
  show [("main.dlg", doublingScript)].mapM Program.formsOfFile = .ok [doublingForms]
  rw [List.mapM_cons, Program.formsOfFile, mapError_eq_ok.mpr hread]
  rfl

/-- The folder with the script, wherever it is. -/
def doublingFolder : FileTree := .folder [("main.dlg", .file doublingScript.toUTF8)]

theorem scriptsOf?_doublingFolder (root : String) :
    Scenario.scriptsOf? root doublingFolder = some (.ofList [("main.dlg", doublingScript)]) := by
  have hname : Scenario.isScript root ["main.dlg"] = true := by
    show FilePath.hasEnding ".dlg".toList "main.dlg".toList = true
    decide
  have hfiles : doublingFolder.files.filter (fun f => Scenario.isScript root f.1)
      = [(["main.dlg"], doublingScript.toUTF8)] := List.filter_eq_self.mpr fun f hf => by
    rw [List.mem_singleton.mp hf, hname]
  unfold Scenario.scriptsOf?
  rw [hfiles, List.mapM_cons, fromUTF8?_toUTF8]
  rfl

theorem create_doublingScenario (x : Float) :
    create (doublingScenario x) .declared = .ok (doublingSession x) :=
  create_eq_ok.mpr ⟨_, _, _, ofSources_doublingScript, rfl, rfl⟩

/-- Any game can be saved on an empty disk. -/
theorem write_to_empty (s : SavedGame) :
    (s.write "save.json").result ⟨.folder [], []⟩
      = (.ok (), ⟨.folder [("save.json", .file s.text.toUTF8)], []⟩) := rfl

/-- One doubled is two, which is read as it was written. -/
theorem load_of_doubled :
    ∃ created d', create (doublingScenario 1) .declared = .ok created ∧
      let session := created.submitAll [0]
      (session.saved.write "save.json").result ⟨.folder [], []⟩ = (.ok (), d') ∧
      session.game.host = ⟨.origin, .ofList [("x", 2)]⟩ ∧
      loadFor d' "save.json" (doublingScenario 1) = .ok session := by
  have hcreated := create_doublingScenario 1
  have hsaved := write_to_empty ((doublingSession 1).submitAll [0]).saved
  obtain ⟨hloaded, -, -⟩ := load_of_saved hcreated [0] hsaved
  have hhost : ((doublingSession 1).submitAll [0]).game.host = ⟨.origin, .ofList [("x", 2)]⟩ := by
    decide +kernel
  have hreads : ∀ x ∈ ((doublingSession 1).submitAll [0]).game.host.numbers, Json.ReadsBack x := by
    rw [hhost]
    decide +kernel
  exact ⟨_, _, hcreated, hsaved, hhost, hloaded.mpr hreads⟩

/-- A game that starts from finite numbers, can be saved and cannot be loaded: the largest power of
ten doubled is infinite, and the file has null for it. -/
theorem not_loaded_of_overflow :
    ∃ created d', (∀ x ∈ (doublingScenario 1e308).host.numbers, Binary64.isFinite x = true) ∧
      create (doublingScenario 1e308) .declared = .ok created ∧
      ((created.submitAll [0]).saved.write "save.json").result ⟨.folder [], []⟩ = (.ok (), d') ∧
      loadFor d' "save.json" (doublingScenario 1e308)
        = .error (Site.stateInvalid.faultAt "save.json" "not a saved game") := by
  have hcreated := create_doublingScenario 1e308
  have hsaved := write_to_empty ((doublingSession 1e308).submitAll [0]).saved
  have hof := (of_created hcreated).submitAll [0]
  have hhost : ((doublingSession 1e308).submitAll [0]).game.host = ⟨.origin, .ofList [("x", 1 / 0)]⟩ := by
    decide +kernel
  have hrefused : ((doublingSession 1e308).submitAll [0]).game.host.reread? = none := by
    rw [hhost]
    exact Sandbox.State.reread?_eq_none (List.mem_append_right _ (List.mem_singleton_self _))
      (Json.reread?_of_not_finite (by decide +kernel))
  refine ⟨_, _, by decide +kernel, hcreated, hsaved, ?_⟩
  rw [hof.loadFor_of_saved hsaved, hrefused]

end Session

end Colloquy
