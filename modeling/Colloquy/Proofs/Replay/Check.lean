import Colloquy.Proofs.Replay.Document
import Colloquy.Proofs.Replay.Run
import Colloquy.Proofs.Text.Bytes

/-!
# What a test case expects

A replay is compared with what its test case expects, in three passes: event by event, variable by
variable, and the pawn. `Judged` says which answer a comparison gives, by what holds of the two: that
it passes, or the first thing that is not as expected. Each pass has a lemma on what it finds
(`firstDifference?_eq_some_iff`, `checkVars_eq_error_iff`), and `check_eq_iff` puts them together.

Main statement, `TestCase.assert_judges`: a test case in a file that can be read and replayed is
judged so, and what a replay showed, once it is what the test case expects, passes.
-/

namespace Colloquy.Replay

/-! ## Events -/

/-- The first place at which events are not the expected ones. -/
structure DiffersFirst (expected observed : List Event) (place : Nat) (wanted seen : Event) :
    Prop where
  get_expected : expected[place]? = some wanted
  get_observed : observed[place]? = some seen
  differ : wanted ≠ seen
  before : ∀ i < place, expected[i]? = observed[i]?

theorem firstDifference?_eq_none_iff : ∀ {expected observed : List Event} (place : Nat),
    observed.length = expected.length →
      (firstDifference? place expected observed = none ↔ observed = expected)
  | [], [], _, _ => iff_of_true rfl rfl
  | [], _ :: _, _, h => absurd h (by simp)
  | _ :: _, [], _, h => absurd h (by simp)
  | e :: expected, o :: observed, place, h => by
    unfold firstDifference?
    by_cases heq : e = o
    · rw [if_pos heq, firstDifference?_eq_none_iff (place + 1) (Nat.succ.inj h), heq]
      simp
    · rw [if_neg heq]
      simp [Ne.symm heq]

theorem DiffersFirst.cons {expected observed : List Event} {place : Nat} {wanted seen e : Event}
    (h : DiffersFirst expected observed place wanted seen) :
    DiffersFirst (e :: expected) (e :: observed) (place + 1) wanted seen where
  get_expected := h.get_expected
  get_observed := h.get_observed
  differ := h.differ
  before i hi := by
    cases i with
    | zero => rfl
    | succ i => exact h.before i (Nat.lt_of_succ_lt_succ hi)

/-- After a common first event the first difference is further on. -/
theorem DiffersFirst.of_cons {expected observed : List Event} {place : Nat}
    {wanted seen e : Event}
    (h : DiffersFirst (e :: expected) (e :: observed) place wanted seen) :
    ∃ later, place = later + 1 ∧ DiffersFirst expected observed later wanted seen := by
  cases place with
  | zero =>
    have hsame : some wanted = some seen := h.get_expected.symm.trans h.get_observed
    exact absurd (Option.some.inj hsame) h.differ
  | succ place =>
    exact ⟨place, rfl, h.get_expected, h.get_observed, h.differ,
      fun i hi => h.before (i + 1) (Nat.succ_lt_succ hi)⟩

/-- The events at the first place are found, counted from where the comparison starts. -/
theorem firstDifference?_eq_some_iff {found : Nat × Event × Event} :
    ∀ {expected observed : List Event} (start : Nat),
      firstDifference? start expected observed = some found ↔
        ∃ place, found.1 = start + place ∧
          DiffersFirst expected observed place found.2.1 found.2.2
  | [], observed, start => by
    refine iff_of_false (by unfold firstDifference?; simp) ?_
    intro h
    obtain ⟨place, -, h⟩ := h
    cases h.get_expected
  | _ :: _, [], start => by
    refine iff_of_false (by unfold firstDifference?; simp) ?_
    intro h
    obtain ⟨place, -, h⟩ := h
    cases h.get_observed
  | e :: expected, o :: observed, start => by
    unfold firstDifference?
    by_cases heq : e = o
    · subst heq
      rw [if_pos rfl, firstDifference?_eq_some_iff (start + 1)]
      constructor
      · intro h
        obtain ⟨place, hplace, h⟩ := h
        exact ⟨place + 1, by omega, h.cons⟩
      · intro h
        obtain ⟨place, hplace, h⟩ := h
        obtain ⟨later, rfl, hlater⟩ := h.of_cons
        exact ⟨later, by omega, hlater⟩
    · rw [if_neg heq]
      constructor
      · intro h
        cases h
        exact ⟨0, rfl, rfl, rfl, heq, fun i hi => absurd hi (Nat.not_lt_zero i)⟩
      · intro h
        obtain ⟨place, hplace, h⟩ := h
        obtain ⟨place', wanted, seen⟩ := found
        cases place with
        | zero =>
          cases hplace
          cases h.get_expected
          cases h.get_observed
          rfl
        | succ place => exact absurd (Option.some.inj (h.before 0 place.succ_pos)) heq

/-! ## Variables -/

/-- Whether a variable is there and equal to a number. -/
def Has (vars : NameMap Float) (name : String) (x : Float) : Prop :=
  ∃ y, vars.find? name = some y ∧ (y == x) = true

theorem checkVars_of_has {vars : NameMap Float} {name : String} {x : Float}
    (h : Has vars name x) (rest : List (String × Float)) :
    checkVars vars ((name, x) :: rest) = checkVars vars rest := by
  obtain ⟨y, hfind, heq⟩ := h
  rw [checkVars, hfind]
  exact if_pos heq

theorem checkVars_of_not_has {vars : NameMap Float} {name : String} {x : Float}
    (h : ¬ Has vars name x) (rest : List (String × Float)) :
    checkVars vars ((name, x) :: rest) = .error (.varDiffers name x (vars.find? name)) := by
  rw [checkVars]
  cases hfind : vars.find? name with
  | none => rfl
  | some y => exact if_neg fun heq => h ⟨y, hfind, heq⟩

theorem checkVars_eq_ok_iff {vars : NameMap Float} : ∀ {expected : List (String × Float)},
    checkVars vars expected = .ok () ↔ ∀ e ∈ expected, Has vars e.1 e.2
  | [] => iff_of_true rfl (List.forall_mem_nil _)
  | (name, x) :: rest => by
    rw [List.forall_mem_cons]
    by_cases hhas : Has vars name x
    · rw [checkVars_of_has hhas, checkVars_eq_ok_iff]
      exact ⟨fun h => ⟨hhas, h⟩, fun h => h.2⟩
    · rw [checkVars_of_not_has hhas]
      exact iff_of_false nofun fun h => hhas h.1

/-- Of the names in order, the comparison stops at the first whose variable is not as expected. -/
theorem checkVars_eq_error_iff {vars : NameMap Float} {failure : Failure} :
    ∀ {expected : List (String × Float)}, Ascending expected →
      (checkVars vars expected = .error failure ↔
        ∃ e ∈ expected, ¬ Has vars e.1 e.2 ∧
          (∀ other ∈ expected, other.1 < e.1 → Has vars other.1 other.2) ∧
          failure = .varDiffers e.1 e.2 (vars.find? e.1))
  | [], _ => iff_of_false nofun (by simp)
  | (name, x) :: rest, h => by
    obtain ⟨hbelow, hrest⟩ := List.pairwise_cons.mp h
    by_cases hhas : Has vars name x
    · rw [checkVars_of_has hhas, checkVars_eq_error_iff hrest]
      constructor
      · intro hfails
        obtain ⟨e, he, hnot, hbefore, hfailure⟩ := hfails
        refine ⟨e, List.mem_cons_of_mem _ he, hnot, ?_, hfailure⟩
        exact List.forall_mem_cons.mpr ⟨fun _ => hhas, hbefore⟩
      · intro hfails
        obtain ⟨e, he, hnot, hbefore, hfailure⟩ := hfails
        rcases List.mem_cons.mp he with rfl | he
        · exact absurd hhas hnot
        · exact ⟨e, he, hnot, (List.forall_mem_cons.mp hbefore).2, hfailure⟩
    · rw [checkVars_of_not_has hhas]
      constructor
      · intro hfails
        refine ⟨(name, x), List.mem_cons_self .., hhas, ?_, (Except.error.inj hfails).symm⟩
        -- no name of the list is below its first
        intro other hother hlt
        rcases List.mem_cons.mp hother with rfl | hother
        · exact absurd hlt (String.lt_irrefl _)
        · exact absurd (String.lt_trans hlt (hbelow other hother)) (String.lt_irrefl _)
      · intro hfails
        obtain ⟨e, he, -, hbefore, rfl⟩ := hfails
        rcases List.mem_cons.mp he with rfl | he
        · rfl
        · exact absurd (hbefore (name, x) (List.mem_cons_self ..) (hbelow e he)) hhas

theorem checkVars_entries_eq_ok_iff {vars expected : NameMap Float} :
    checkVars vars expected.entries = .ok () ↔
      ∀ name x, expected.find? name = some x → Has vars name x := by
  rw [checkVars_eq_ok_iff]
  constructor
  · intro h name x hexpected
    exact h (name, x) (NameMap.mem_entries_iff.mpr hexpected)
  · intro h e he
    exact h e.1 e.2 (NameMap.mem_entries_iff.mp he)

theorem checkVars_entries_eq_error_iff {vars expected : NameMap Float} {failure : Failure} :
    checkVars vars expected.entries = .error failure ↔
      ∃ name x, expected.find? name = some x ∧ ¬ Has vars name x ∧
        (∀ other y, utf8 other < utf8 name → expected.find? other = some y → Has vars other y) ∧
        failure = .varDiffers name x (vars.find? name) := by
  rw [checkVars_eq_error_iff expected.ascending]
  constructor
  · intro h
    obtain ⟨e, he, hnot, hbefore, rfl⟩ := h
    refine ⟨e.1, e.2, NameMap.mem_entries_iff.mp he, hnot, fun other y hlt hother => ?_, rfl⟩
    exact hbefore (other, y) (NameMap.mem_entries_iff.mpr hother) (utf8_lt_iff.mp hlt)
  · intro h
    obtain ⟨name, x, hexpected, hnot, hbefore, rfl⟩ := h
    refine ⟨(name, x), NameMap.mem_entries_iff.mpr hexpected, hnot, fun other hother hlt => ?_, rfl⟩
    exact hbefore other.1 other.2 (utf8_lt_iff.mpr hlt) (NameMap.mem_entries_iff.mp hother)

/-! ## The comparison -/

/-- What a replay is judged to be by its test case: as expected in all, or otherwise in the first of
these that it is not: how many events there are, the events in their order, the variables in the order
of their names' bytes, the pawn. -/
inductive Judged (c : TestCase) (t : Transcript) : Except Failure Unit → Prop
  | met (events : t.events = c.expectedEvents)
    (vars : ∀ name x, c.expectedVars.find? name = some x → Has t.host.vars name x)
    (pawn : ∀ p, c.expectedPawn = some p → t.host.pawn.same p = true) : Judged c t (.ok ())
  | eventCount (counts : t.events.length ≠ c.expectedEvents.length) :
    Judged c t (.error (.eventCount c.expectedEvents.length t.events))
  | eventDiffers {place : Nat} {wanted seen : Event}
    (counts : t.events.length = c.expectedEvents.length)
    (first : DiffersFirst c.expectedEvents t.events place wanted seen) :
    Judged c t (.error (.eventDiffers place wanted seen))
  | varDiffers {name : String} {x : Float} (events : t.events = c.expectedEvents)
    (expected : c.expectedVars.find? name = some x) (differs : ¬ Has t.host.vars name x)
    (least : ∀ other y, utf8 other < utf8 name → c.expectedVars.find? other = some y →
      Has t.host.vars other y) :
    Judged c t (.error (.varDiffers name x (t.host.vars.find? name)))
  | pawnDiffers {p : Sandbox.Point} (events : t.events = c.expectedEvents)
    (vars : ∀ name x, c.expectedVars.find? name = some x → Has t.host.vars name x)
    (expected : c.expectedPawn = some p) (differs : ¬ t.host.pawn.same p = true) :
    Judged c t (.error (.pawnDiffers p t.host.pawn))

section Check

variable {c : TestCase} {t : Transcript}

/-- The last pass of a comparison. -/
def checkPawn (c : TestCase) (t : Transcript) : Except Failure Unit :=
  match c.expectedPawn with
  | none => .ok ()
  | some expected =>
    if t.host.pawn.same expected then .ok () else .error (.pawnDiffers expected t.host.pawn)

/-- Once the events are as expected, the variables and the pawn are left. -/
theorem check_of_events (h : t.events = c.expectedEvents) : check c t =
    (checkVars t.host.vars c.expectedVars.entries >>= fun _ => checkPawn c t) := by
  have hcount : t.events.length = c.expectedEvents.length := congrArg List.length h
  have hnone := (firstDifference?_eq_none_iff 0 hcount).mpr h
  unfold check
  rw [if_neg (not_not_intro hcount), hnone]
  rfl

theorem Judged.check_eq {r : Except Failure Unit} (h : Judged c t r) : check c t = r := by
  cases h with
  | met events vars pawn =>
    rw [check_of_events events, checkVars_entries_eq_ok_iff.mpr vars]
    show checkPawn c t = .ok ()
    unfold checkPawn
    cases hexpected : c.expectedPawn with
    | none => rfl
    | some p => exact if_pos (pawn p hexpected)
  | eventCount counts => exact if_pos counts
  | @eventDiffers place wanted seen counts first =>
    have hfirst : firstDifference? 0 c.expectedEvents t.events = some (place, wanted, seen) :=
      (firstDifference?_eq_some_iff 0).mpr ⟨place, (Nat.zero_add place).symm, first⟩
    unfold check
    rw [if_neg (not_not_intro counts), hfirst]
  | @varDiffers name x events expected differs least =>
    have hvars := checkVars_entries_eq_error_iff.mpr ⟨name, x, expected, differs, least, rfl⟩
    rw [check_of_events events, hvars]
    rfl
  | pawnDiffers events vars expected differs =>
    rw [check_of_events events, checkVars_entries_eq_ok_iff.mpr vars]
    show checkPawn c t = _
    unfold checkPawn
    rw [expected]
    exact if_neg differs

/-- Every replay is judged to be something. -/
theorem exists_judged (c : TestCase) (t : Transcript) : ∃ r, Judged c t r := by
  by_cases hcount : t.events.length = c.expectedEvents.length
  · cases hfirst : firstDifference? 0 c.expectedEvents t.events with
    | some found =>
      obtain ⟨place, -, first⟩ := (firstDifference?_eq_some_iff 0).mp hfirst
      exact ⟨_, .eventDiffers hcount first⟩
    | none =>
      have hevents := (firstDifference?_eq_none_iff 0 hcount).mp hfirst
      cases hvars : checkVars t.host.vars c.expectedVars.entries with
      | error failure =>
        obtain ⟨name, x, expected, differs, least, -⟩ := checkVars_entries_eq_error_iff.mp hvars
        exact ⟨_, .varDiffers hevents expected differs least⟩
      | ok value =>
        have vars := checkVars_entries_eq_ok_iff.mp hvars
        by_cases hpawn : ∀ p, c.expectedPawn = some p → t.host.pawn.same p = true
        · exact ⟨_, .met hevents vars hpawn⟩
        · push Not at hpawn
          obtain ⟨p, expected, differs⟩ := hpawn
          exact ⟨_, .pawnDiffers hevents vars expected differs⟩
  · exact ⟨_, .eventCount hcount⟩

/-- A comparison gives the answer that the replay is judged to have. -/
theorem check_eq_iff {r : Except Failure Unit} : check c t = r ↔ Judged c t r := by
  constructor
  · intro h
    obtain ⟨r', hjudged⟩ := exists_judged c t
    rw [← h, hjudged.check_eq]
    exact hjudged
  · exact Judged.check_eq

end Check

/-! ## Files of test cases -/

namespace TestCase

/-- The test case that expects what a replay showed. -/
def expecting (c : TestCase) (t : Transcript) : TestCase :=
  { c with
    expectedEvents := t.events
    expectedVars := t.host.vars
    expectedPawn := some t.host.pawn }

section Read

variable {d d' : Disk} {path path' scripts : String} {c : TestCase} {t : Transcript}

/-- A replay does not look at what is expected, nor at more of the disk than the scripts and what is
beside them. -/
theorem run_expecting (h : readScenario d' scripts = readScenario d scripts) :
    run d' scripts (c.expecting t) = run d scripts c := by
  unfold run
  rw [h]
  rfl

theorem assert_of_read (hread : read d path = .ok c) (hrun : run d scripts c = .ok t) :
    assert d scripts path = check c t := by
  unfold assert
  rw [hread]
  show (run d scripts c >>= fun shown => check c shown) = _
  rw [hrun]
  rfl

/-- What a replay showed is as expected by the test case that expects it, once this was read: then all
numbers are finite and equal themselves. -/
theorem judged_expecting (hread : read d path = .ok (c.expecting t)) :
    Judged (c.expecting t) t (.ok ()) := by
  obtain ⟨-, -, hvars, hpawn⟩ := forall_mem_figures.mp (fits_of_read hread).inRange
  refine .met rfl (fun name x hexpected => ⟨x, hexpected, ?_⟩) fun p hexpected => ?_
  · exact Binary64.beq_self_of_isFinite (hvars (name, x) (NameMap.mem_entries_iff.mpr hexpected))
  · cases hexpected
    have hplace : ∀ x ∈ [t.host.pawn.x, t.host.pawn.y, t.host.pawn.z], (x == x) = true :=
      fun x hx => Binary64.beq_self_of_isFinite (hpawn _ (List.mem_singleton_self _) x hx)
    simp only [List.forall_mem_cons] at hplace
    obtain ⟨hx, hy, hz, -⟩ := hplace
    unfold Sandbox.Point.same
    rw [hx, hy, hz]
    rfl

theorem height_expecting (t : Transcript) (h : c.toJson.height ≤ Json.depthLimit) :
    (c.expecting t).toJson.height ≤ Json.depthLimit := by
  obtain ⟨inside, hinside, hfields⟩ := Json.height_members_le.mp h
  obtain rfl : inside = 126 := (Nat.succ.inj hinside).symm
  simp only [List.forall_mem_cons] at hfields
  obtain ⟨-, hvars, hindexing, hactions, -⟩ := hfields
  have hevents : (Json.array (t.events.map Event.toJson)).height ≤ 126 :=
    Json.height_array_le.mpr ⟨125, rfl, List.forall_mem_map.mpr fun e _ => e.height_toJson_le 123⟩
  have hexpected : (Sandbox.varsToJson t.host.vars).height ≤ 126 := Json.height_members_le.mpr
    ⟨125, rfl, List.forall_mem_map.mpr fun e _ => (Json.height_ofFloat e.2).trans_le (Nat.zero_le _)⟩
  have hpawn : t.host.pawn.toJson.height ≤ 126 := Sandbox.Point.height_toJson_le.mpr ⟨125, rfl⟩
  refine Json.height_members_le.mpr ⟨126, rfl, ?_⟩
  simp only [List.forall_mem_cons]
  exact ⟨Nat.zero_le _, hvars, hindexing, hactions, hevents, hexpected, hpawn, List.forall_mem_nil _⟩

/-- The text of the test case that expects what a replay showed is read as it, if each number is. -/
theorem read_expecting (hread : read d path = .ok c)
    (hfile : d'.text? path' = some (c.expecting t).toJson.compact)
    (hnumbers : ∀ x ∈ c.vars.entries.map (·.2) ++ t.host.numbers, Json.ReadsBack x) :
    read d' path' = .ok (c.expecting t) := by
  have hfits := fits_of_read hread
  obtain ⟨-, -, -, hschema⟩ := read_eq_ok.mp hread
  refine read_of_text hfile hschema (height_expecting t hfits.height) (forall_mem_figures.mpr ?_)
  -- counts that were read are in range
  obtain ⟨-, hcounts, -, -⟩ := forall_mem_figures.mp hfits.inRange
  obtain ⟨hvars, hhost⟩ := List.forall_mem_append.mp hnumbers
  obtain ⟨hpawn, hhostVars⟩ := List.forall_mem_append.mp hhost
  exact ⟨fun e he => hvars _ (List.mem_map_of_mem he),
    fun index hindex => Json.toNat?_ofNat (hcounts index hindex),
    fun e he => hhostVars _ (List.mem_map_of_mem he), List.forall_mem_singleton.mpr hpawn⟩

/-- **A test case passes just when its replay is as expected.** For a test case that can be read from
its file and replayed, the answer is the one its replay is judged to have. And wherever the scripts and
what is beside them are the same, a file passes that is read as the test case with what the replay
showed for its expectations; its text is read so if each of the numbers in it is. -/
theorem assert_judges (hread : read d path = .ok c) (hrun : run d scripts c = .ok t) :
    (∀ r, assert d scripts path = r ↔ Judged c t r) ∧
    ∀ d' path', readScenario d' scripts = readScenario d scripts →
      (read d' path' = .ok (c.expecting t) → assert d' scripts path' = .ok ()) ∧
      ((∀ x ∈ c.vars.entries.map (·.2) ++ t.host.numbers, Json.ReadsBack x) →
        d'.text? path' = some (c.expecting t).toJson.compact → assert d' scripts path' = .ok ()) := by
  constructor
  · intro r
    rw [assert_of_read hread hrun]
    exact check_eq_iff
  · intro d' path' hscripts
    have hpasses (hread' : read d' path' = .ok (c.expecting t)) : assert d' scripts path' = .ok () := by
      rw [assert_of_read hread' ((run_expecting hscripts).trans hrun)]
      exact (judged_expecting hread').check_eq
    exact ⟨hpasses, fun hnumbers hfile => hpasses (read_expecting hread hfile hnumbers)⟩

end Read

/-! ### A number that doubles -/

/-- What is seen where a variable is doubled. -/
def demoTranscript : Transcript :=
  ⟨[.prompt "A" ["Continue..."], .prompt "A" ["Continue..."]], 1, ⟨.origin, .ofList [("x", 2)]⟩⟩

/-- A disk with the script and two test cases beside its folder. -/
def casesDisk (empty full : String) : Disk :=
  demoDisk [("empty.json", .file empty.toUTF8), ("full.json", .file full.toUTF8)]

theorem text?_casesDisk_empty (empty full : String) :
    (casesDisk empty full).text? "empty.json" = some empty := fromUTF8?_toUTF8 empty

theorem text?_casesDisk_full (empty full : String) :
    (casesDisk empty full).text? "full.json" = some full := fromUTF8?_toUTF8 full

theorem run_demoCase (more : List (String × FileTree)) :
    run (demoDisk more) "demo" demoCase = .ok demoTranscript := by
  have hstart : (Playthrough.startFrom Sandbox.host false _ demoCase.indexing).result
    { Sandbox.State.empty with vars := Sandbox.State.empty.vars.overlay demoCase.vars } = _ := start_demo
  have htwo : (1 : Float) + 1 = 2 := by decide +kernel
  rw [run_of_read (readScenario_demoDisk more), hstart, demoTranscript, ← htwo]
  rfl

/-- Two test cases are judged: one has too few events to expect, and the other expects what is seen. -/
theorem assert_on_casesDisk :
    let d := casesDisk demoCase.toJson.compact (demoCase.expecting demoTranscript).toJson.compact
    assert d "demo" "empty.json" = .error (.eventCount 0 demoTranscript.events) ∧
      assert d "demo" "full.json" = .ok () := by
  intro d
  have hread : read d "empty.json" = .ok demoCase :=
    read_of_text (text?_casesDisk_empty ..) rfl (by decide +kernel) (by decide +kernel)
  obtain ⟨hjudged, hpasses⟩ := assert_judges hread (run_demoCase _)
  refine ⟨(hjudged _).mpr (.eventCount (by decide)), ?_⟩
  exact (hpasses d "full.json" rfl).2 (by decide +kernel) (text?_casesDisk_full ..)

end TestCase

end Colloquy.Replay
