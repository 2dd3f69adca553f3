import Colloquy.Playthrough.Source
import Colloquy.Proofs.Session.Load
import Colloquy.Replay

/-!
# A replay and its limit

A replay does four things at once: it submits, it looks for the end, it lists what is seen, and it
counts its prompts. Here the submissions stand alone (`Replay.unlimited`): they are made in order,
until one fails, the dialogue has ended, or none is left, however many there are. What is seen is
then read off the submissions that were made (`Submitted.events`), and the limit off their number.

`Replay.steps_eq` says so of a replay from anywhere, by induction on the prompts it has left. Main
statement, `Replay.run_reports`: what a test case gives on a scripts folder, whether it fails, stops
early, runs to its end, or reaches the limit (`Replay.Reports`).
-/

namespace Colloquy.Replay

/-! ## Submissions without a limit -/

/-- A submission that succeeded, with what was shown before it. -/
structure Submitted where
  before : View
  outcome : Outcome

/-- Why no further index is submitted. -/
inductive Stop
  | failed (fault : Fault)
  | ended (host : Sandbox.State)
  /-- All indices are submitted and the dialogue goes on. -/
  | waiting (shown : View) (host : Sandbox.State)

/-- Submits indices up to the first that fails or the end of the dialogue. -/
def unlimited (game : Game Sandbox.State) : List Nat → List Submitted × Stop
  | [] =>
    match game.play.view with
    | none => ([], .ended game.host)
    | some view => ([], .waiting view game.host)
  | index :: rest =>
    match game.play.view with
    | none => ([], .ended game.host)
    | some view =>
      match (Game.submit Sandbox.host index).result game with
      | (.error fault, _) => ([], .failed fault)
      | (.ok outcome, game) =>
        let (later, stop) := unlimited game rest
        (⟨view, outcome⟩ :: later, stop)

section Unlimited

variable {game game' : Game Sandbox.State} {view : View} {index : Nat}

theorem unlimited_of_ended (h : game.play.view = none) (actions : List Nat) :
    unlimited game actions = ([], .ended game.host) := by
  cases actions with
  | nil => rw [unlimited, h]
  | cons index rest => rw [unlimited, h]

theorem unlimited_nil (h : game.play.view = some view) :
    unlimited game [] = ([], .waiting view game.host) := by
  rw [unlimited, h]

theorem unlimited_of_failed (h : game.play.view = some view) {fault : Fault}
    (hsubmit : (Game.submit Sandbox.host index).result game = (.error fault, game'))
    (rest : List Nat) : unlimited game (index :: rest) = ([], .failed fault) := by
  rw [unlimited, h]
  dsimp only
  rw [hsubmit]

theorem unlimited_of_submitted (h : game.play.view = some view) {outcome : Outcome}
    (hsubmit : (Game.submit Sandbox.host index).result game = (.ok outcome, game'))
    (rest : List Nat) : unlimited game (index :: rest)
      = (⟨view, outcome⟩ :: (unlimited game' rest).1, (unlimited game' rest).2) := by
  rw [unlimited, h]
  dsimp only
  rw [hsubmit]

end Unlimited

/-- There are no more submissions than indices, and a replay that goes on has used them all. -/
theorem length_unlimited (actions : List Nat) : ∀ game : Game Sandbox.State,
    (unlimited game actions).1.length ≤ actions.length ∧
    ∀ shown host, (unlimited game actions).2 = .waiting shown host →
      (unlimited game actions).1.length = actions.length := by
  induction actions with
  | nil =>
    intro game
    cases hview : game.play.view with
    | none => simp [unlimited_of_ended hview]
    | some view => simp [unlimited_nil hview]
  | cons index rest ih =>
    intro game
    cases hview : game.play.view with
    | none => simp [unlimited_of_ended hview]
    | some view =>
      rcases hsubmit : (Game.submit Sandbox.host index).result game with ⟨answer, after⟩
      cases answer with
      | error fault => simp [unlimited_of_failed hview hsubmit]
      | ok outcome =>
        obtain ⟨hle, hall⟩ := ih after
        simp only [unlimited_of_submitted hview hsubmit, List.length_cons]
        exact ⟨Nat.succ_le_succ hle, fun shown host hstop => congrArg (· + 1) (hall shown host hstop)⟩

/-! ## What is seen -/

/-- The event of what is shown. -/
def shownEvent (view : View) : Event := .prompt view.prompt view.choices

/-- What is seen of a submission: what was shown before it, and whether it was ignored. -/
def Submitted.events (s : Submitted) : List Event :=
  shownEvent s.before :: if s.outcome = .ignored then [.ignored] else []

theorem promptEvent_of_view {p : Playthrough} {view : View} (h : p.view = some view) :
    promptEvent p = shownEvent view := by
  unfold promptEvent Playthrough.choices shownEvent
  rw [h]
  rfl

/-- What a replay answers that has so many prompts left, after some indices and events, the last
event first, where these are the submissions to come and the reason they stop. -/
def concluded (used : Nat) (seen : List Event) (left total : Nat) :
    List Submitted × Stop → Except Failure Transcript
  | (made, stop) =>
    if left ≤ made.length then .error .stepLimit
    else
      let events := seen.reverse ++ made.flatMap Submitted.events
      match stop with
      | .failed fault => .error (.dialogue fault)
      | .ended host =>
        if used + made.length = total then .ok ⟨events ++ [.finished], used + made.length, host⟩
        else .error (.unusedActions (used + made.length) total)
      | .waiting shown host => .ok ⟨events ++ [shownEvent shown], used + made.length, host⟩

/-- A submission takes one prompt, and its events are seen before the others. -/
theorem concluded_cons (used : Nat) (seen : List Event) (left total : Nat) (s : Submitted)
    (made : List Submitted) (stop : Stop) :
    concluded used seen (left + 1) total (s :: made, stop)
      = concluded (used + 1) (s.events.reverse ++ seen) left total (made, stop) := by
  unfold concluded
  have hused : used + (made.length + 1) = used + 1 + made.length := by omega
  simp only [List.length_cons, Nat.add_le_add_iff_right, hused, List.flatMap_cons,
    List.reverse_append, List.reverse_reverse, List.append_assoc]

/-- **A replay from anywhere** is the submissions without a limit, concluded by the prompts that it
has left. -/
theorem steps_eq (left : Nat) : ∀ (game : Game Sandbox.State) (used : Nat) (seen : List Event)
    (actions : List Nat), steps game used seen left actions
      = concluded used seen left (used + actions.length) (unlimited game actions) := by
  induction left with
  | zero =>
    intro game used seen actions
    rw [steps, concluded, if_pos (Nat.zero_le _)]
  | succ left ih =>
    intro game used seen actions
    rw [steps]
    cases hview : game.play.view with
    | none =>
      have hended : game.play.isEnded = true := by rw [Playthrough.isEnded, hview]; rfl
      rw [if_pos hended, unlimited_of_ended hview]
      cases actions with
      | nil => simp [concluded]
      | cons index rest => simp [concluded]
    | some view =>
      have hgoes : ¬ game.play.isEnded = true := by rw [Playthrough.isEnded, hview]; simp
      rw [if_neg hgoes, promptEvent_of_view hview]
      cases actions with
      | nil => simp [unlimited_nil hview, concluded]
      | cons index rest =>
        rcases hsubmit : (Game.submit Sandbox.host index).result game with ⟨answer, after⟩
        have htotal : used + (index :: rest).length = used + 1 + rest.length := by
          rw [List.length_cons]
          omega
        cases answer with
        | error fault =>
          rw [unlimited_of_failed hview hsubmit]
          simp [hsubmit, concluded]
        | ok outcome =>
          rw [unlimited_of_submitted hview hsubmit, concluded_cons, htotal]
          -- an ignored submission is seen, any other is not
          cases outcome with
          | ignored => simp [hsubmit, ih, Submitted.events]
          | entered _ | ended => simp [hsubmit, ih, Submitted.events]

/-! ## Test cases -/

/-- What a test case of so many indices gives, where these are the submissions of its replay without
a limit, and the reason they stop. -/
structure Reports (total : Nat) (made : List Submitted) (stop : Stop)
    (answer : Except Failure Transcript) : Prop where
  length_le : made.length ≤ total
  length_of_waiting : ∀ shown host, stop = .waiting shown host → made.length = total
  /-- The fault of a submission within the limit. -/
  failed : ∀ fault, stop = .failed fault → made.length + 1 ≤ 5000 →
    answer = .error (.dialogue fault)
  /-- The end below the limit, reached with the last index. -/
  ended : ∀ host, stop = .ended host → made.length < 5000 → made.length = total →
    answer = .ok ⟨made.flatMap Submitted.events ++ [.finished], total, host⟩
  /-- The end below the limit, with indices left over. -/
  unused : ∀ host, stop = .ended host → made.length < 5000 → made.length < total →
    answer = .error (.unusedActions made.length total)
  /-- All indices submitted, below the limit and before the end. -/
  waiting : ∀ shown host, stop = .waiting shown host → total < 5000 →
    answer = .ok ⟨made.flatMap Submitted.events ++ [shownEvent shown], total, host⟩
  /-- As many submissions as the limit, whatever came of the last of them and comes after it. -/
  stepLimit : answer = .error .stepLimit ↔ 5000 ≤ made.length
  /-- What a transcript holds: every index is submitted, the host is the one after the last
  submission, and after what is seen of the submissions comes the end or the prompt they led to. -/
  transcript : ∀ t, answer = .ok t → made.length = total ∧ t.used = total ∧
    ∃ last, t.events = made.flatMap Submitted.events ++ [last] ∧
      ((stop = .ended t.host ∧ last = .finished) ∨
        ∃ shown, stop = .waiting shown t.host ∧ last = shownEvent shown)

/-- A conclusion from the full limit reports the replay. -/
theorem reports_concluded {total : Nat} {made : List Submitted} {stop : Stop}
    (hle : made.length ≤ total)
    (hwaiting : ∀ shown host, stop = .waiting shown host → made.length = total) :
    Reports total made stop (concluded 0 [] stepLimit total (made, stop)) := by
  have hlimit : stepLimit = 5000 := rfl
  simp only [concluded, hlimit, Nat.zero_add, List.reverse_nil, List.nil_append]
  by_cases hmade : 5000 ≤ made.length
  · -- at the limit it does not matter why the submissions stop
    rw [if_pos hmade]
    refine ⟨hle, hwaiting, ?_, ?_, ?_, ?_, iff_of_true rfl hmade, nofun⟩
    · intro fault _ hlt
      omega
    · intro host _ hlt
      omega
    · intro host _ hlt
      omega
    · intro shown host hstop hlt
      have hall := hwaiting shown host hstop
      omega
  · rw [if_neg hmade]
    cases stop with
    | failed fault =>
      refine ⟨hle, nofun, ?_, nofun, nofun, nofun, iff_of_false nofun hmade, nofun⟩
      intro fault' hstop _
      cases hstop
      rfl
    | ended host =>
      dsimp only
      by_cases htotal : made.length = total
      · rw [if_pos htotal, htotal]
        refine ⟨hle, nofun, nofun, ?_, ?_, nofun, iff_of_false nofun hmade, ?_⟩
        · intro host' hstop _ _
          cases hstop
          rfl
        · intro host' _ _ hlt
          omega
        · intro t ht
          cases ht
          exact ⟨htotal, rfl, .finished, rfl, .inl ⟨rfl, rfl⟩⟩
      · rw [if_neg htotal]
        refine ⟨hle, nofun, nofun, ?_, ?_, nofun, iff_of_false nofun hmade, nofun⟩
        · intro host' _ _ hsame
          exact absurd hsame htotal
        · intro host' hstop _ _
          rfl
    | waiting shown host =>
      have htotal := hwaiting shown host rfl
      rw [htotal]
      refine ⟨hle, hwaiting, nofun, nofun, nofun, ?_, iff_of_false nofun hmade, ?_⟩
      · intro shown' host' hstop _
        cases hstop
        rfl
      · intro t ht
        cases ht
        exact ⟨htotal, rfl, shownEvent shown, rfl, .inr ⟨shown, rfl, rfl⟩⟩

/-- A state of the sandbox with the variables of a test case laid over its own. -/
structure TestCase.Overlaid (c : TestCase) (state initial : Sandbox.State) : Prop where
  pawn : initial.pawn = state.pawn
  vars : ∀ name, initial.vars.find? name = (c.vars.find? name).or (state.vars.find? name)

theorem TestCase.overlaid_overlay (c : TestCase) (state : Sandbox.State) :
    c.Overlaid state { state with vars := state.vars.overlay c.vars } :=
  ⟨rfl, fun _ => NameMap.find?_insertAll c.vars.ascending⟩

theorem TestCase.Overlaid.eq {c : TestCase} {state initial initial' : Sandbox.State}
    (h : c.Overlaid state initial) (h' : c.Overlaid state initial') : initial = initial' := by
  have hvars : initial.vars = initial'.vars :=
    NameMap.ext_find? fun name => (h.vars name).trans (h'.vars name).symm
  cases initial
  cases initial'
  cases h.pawn.trans h'.pawn.symm
  cases hvars
  rfl

section Run

variable {d : Disk} {path : String} {c : TestCase} {sources : NameMap String}
  {state : Sandbox.State}

/-- A test case is replayed from the start of the scripts on their state with its variables. -/
theorem run_of_read (hread : readScenario d path = .ok (sources, state)) : run d path c =
    match (Playthrough.startFrom Sandbox.host false sources c.indexing).result
      { state with vars := state.vars.overlay c.vars } with
    | (.error fault, _) => .error (.dialogue fault)
    | (.ok play, host) => steps ⟨play, host⟩ 0 [] stepLimit c.actions := by
  unfold run Playthrough.startFrom
  rw [hread, Action.result_ofExcept_bind]
  show ((Program.ofSources false sources).mapError Failure.dialogue >>= _) = _
  cases Program.ofSources false sources with
  | error fault => rfl
  | ok program => rfl

/-- **What a test case gives.** On any scripts folder that can be read, a test case starts on the
state beside the scripts with its own variables laid over it. If that fails it gives the fault;
otherwise it reports what submitting its indices in order leads to, up to a limit of 5000
prompts. -/
theorem run_reports (hread : readScenario d path = .ok (sources, state)) :
    ∃ initial, c.Overlaid state initial ∧
      (∀ fault after, (Playthrough.startFrom Sandbox.host false sources c.indexing).result initial
          = (.error fault, after) → run d path c = .error (.dialogue fault)) ∧
      ∀ play host, (Playthrough.startFrom Sandbox.host false sources c.indexing).result initial
          = (.ok play, host) →
        let replay := unlimited ⟨play, host⟩ c.actions
        Reports c.actions.length replay.1 replay.2 (run d path c) := by
  refine ⟨_, c.overlaid_overlay state, ?_, ?_⟩
  · intro fault after hstart
    rw [run_of_read hread, hstart]
  · intro play host hstart replay
    obtain ⟨hle, hwaiting⟩ := length_unlimited c.actions ⟨play, host⟩
    rw [run_of_read hread, hstart]
    dsimp only
    rw [steps_eq, Nat.zero_add]
    exact reports_concluded hle hwaiting

end Run

/-! ## A number that doubles -/

/-- A disk with the script that doubles a variable, and more beside its folder. -/
def demoDisk (more : List (String × FileTree)) : Disk :=
  ⟨.folder (("demo", Session.doublingFolder) :: more), []⟩

theorem readScenario_demoDisk (more : List (String × FileTree)) :
    readScenario (demoDisk more) "demo"
      = .ok (.ofList [("main.dlg", Session.doublingScript)], .empty) := by
  have hfound : (demoDisk more).find? "demo" = some Session.doublingFolder := rfl
  unfold readScenario
  rw [hfound]
  dsimp only
  rw [Session.scriptsOf?_doublingFolder]
  rfl

/-- A variable to double, once. -/
def demoCase : TestCase where
  schema := currentSchema
  vars := .ofList [("x", 1)]
  indexing := .declared
  actions := [0]
  expectedEvents := []
  expectedVars := .empty
  expectedPawn := none

theorem start_demo : (Playthrough.startFrom Sandbox.host false
    (.ofList [("main.dlg", Session.doublingScript)]) .declared).result
      ⟨.origin, .ofList [("x", 1)]⟩
    = (.ok ⟨Session.doublingDialogue, .declared, some ⟨"a", "A", ["Continue..."], []⟩⟩,
      ⟨.origin, .ofList [("x", 1)]⟩) :=
  Playthrough.startFrom_eq_ok.mpr ⟨_, Session.ofSources_doublingScript, rfl⟩

/-- The variable is doubled, and the label comes again. -/
theorem run_on_demoDisk : run (demoDisk []) "demo" demoCase
    = .ok ⟨[.prompt "A" ["Continue..."], .prompt "A" ["Continue..."]], 1,
      ⟨.origin, .ofList [("x", 2)]⟩⟩ := by
  obtain ⟨initial, hinitial, -, hreports⟩ := run_reports (c := demoCase) (readScenario_demoDisk [])
  obtain rfl : initial = ⟨.origin, .ofList [("x", 1)]⟩ :=
    hinitial.eq (demoCase.overlaid_overlay .empty)
  have htwo : (1 : Float) + 1 = 2 := by decide +kernel
  rw [← htwo]
  exact (hreports _ _ start_demo).waiting _ _ rfl (by decide)

end Colloquy.Replay
