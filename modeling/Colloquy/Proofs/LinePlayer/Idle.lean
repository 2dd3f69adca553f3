import Colloquy.Proofs.Command.Agent
import Colloquy.Proofs.LinePlayer.Loop
import Colloquy.Proofs.Sandbox.Offered
import Colloquy.Proofs.Sandbox.Pawn

/-!
# Bad lines are harmless

A line that is neither a command nor an index is refused, and an index that is out of range or stands
for a choice that is not open is submitted and comes to nothing: the session is the same after it, the
pawn included (`Sandbox.game_of_refused`). So such a line could as well not be there (`Idle`,
`take_idle`), whatever stands around it. Main statement: `bad_lines_are_harmless`, with what else can
come of a line: the loops of the player end, only saving, loading and other faults of a submission end
them with a fault, and starting anew always works and forgets all but the way of counting choices. A
game that is prepared on a disk starts anew as it was prepared.
-/

namespace Colloquy

/-- The answer to the submission of a choice that there is not, or that is not open. -/
def Refused : Except Fault Outcome → Prop
  | .ok outcome => outcome = .ignored
  | .error fault => fault.kind = .indexOutOfRange

namespace Sandbox

open Playthrough (leave)

/-! ## Submissions that come to nothing -/

section Leave

variable {p : Playthrough} {view : View} {label : Label} {index : Nat} {s s' : State}

theorem host_of_stay (hleave : (leave host p view label index).result s = (.ok .stay, s')) :
    s' = s := by
  generalize htransition : Playthrough.Transition.stay = transition at hleave
  cases Playthrough.leaving hleave with
  | nothing => cases htransition
  | @block after _ _ _ _ _ =>
    cases htarget : after.target <;> rw [htarget] at htransition <;> cases htransition
  | choice _ _ hallowed => exact (quiet.allowed hallowed).1

/-- An index is found to be out of range before any code is run. -/
theorem host_of_outOfRange {fault : Fault}
    (hleave : (leave host p view label index).result s = (.error fault, s'))
    (hkind : fault.kind = .indexOutOfRange) : s' = s := by
  have hmisuse : fault.IsMisuse := .inl hkind
  unfold leave at hleave
  cases hchoices : label.choices with
  | none =>
    rw [hchoices] at hleave
    simp only [Playthrough.continueFrom] at hleave
    split at hleave
    · cases hleave
      rfl
    · split at hleave
      · cases hleave
      · next after _ =>
        rw [Action.result_bind_pure] at hleave
        rcases hplay : (Turn.play host (Turn.executeBlock host after.code)).result s with
          ⟨other | ended, s''⟩ <;> rw [hplay] at hleave <;> cases hleave
        exact absurd hmisuse (raises_no_misuse.play (raises_no_misuse.executeBlock _) _ _ _ hplay)
  | some choices =>
    rw [hchoices] at hleave
    simp only [Playthrough.choose] at hleave
    rw [Action.result_ofExcept_bind] at hleave
    split at hleave
    · next choice hpick =>
      rw [Action.result_bind_pure] at hleave
      rcases hallowed : (Playthrough.allowed host choice).result s with
        ⟨other | isOpen, s''⟩ <;> rw [hallowed] at hleave <;> cases hleave
      exact absurd hmisuse (raises_no_misuse.allowed choice _ _ _ hallowed)
    · cases hleave
      rfl

end Leave

/-- A submission that is refused leaves everything as it was. -/
theorem game_of_refused {index : Nat} {game after : Game State} {answer : Except Fault Outcome}
    (hsubmit : (Game.submit host index).result game = (answer, after)) (hrefused : Refused answer) :
    after = game := by
  have hsubmission := Game.submission host index game
  rw [hsubmit] at hsubmission
  cases hsubmission with
  | ended => rfl
  | lost => rfl
  | refused here hleave => rw [host_of_outOfRange hleave hrefused]
  | stayed here hleave => rw [host_of_stay hleave]
  | unbuilt here hleave hbuild =>
    exact absurd (.inl hrefused) (raises_no_misuse.build
      (.inr (Fault.not_isMisuse_unknownLabel _)) _ _ _ hbuild)
  | unabsorbed here hleave hbuild habsorb =>
    exact absurd (.inl hrefused) (absorb_no_misuse _ _ _ _ habsorb)
  | unfinished here hleave habsorb =>
    exact absurd (.inl hrefused) (absorb_no_misuse _ _ _ _ habsorb)
  | entered => cases hrefused
  | closed => cases hrefused
  | finished => cases hrefused

end Sandbox

namespace Session

theorem eq_of_refused {index : Nat} {session after : Session} {answer : Except Fault Outcome}
    (hsubmit : (submit index).result session = (answer, after)) (hrefused : Refused answer) :
    after = session := by
  unfold submit at hsubmit
  rw [Action.result_within] at hsubmit
  obtain ⟨hanswer, rfl⟩ := Prod.mk.inj hsubmit
  have hgame := Sandbox.game_of_refused (Prod.ext hanswer rfl) hrefused
  exact congrArg (fun game => { session with game }) hgame

/-- The session, counting choices in another way. -/
def withIndexing (session : Session) (indexing : Indexing) : Session :=
  { session with game := session.game.withIndexing indexing }

/-- Where a scenario can be started, it can be started counting choices in another way. -/
theorem create_of_created {s : Scenario} {i : Indexing} {created : Session}
    (hcreate : create s i = .ok created) (j : Indexing) :
    create s j = .ok (created.withIndexing j) := by
  obtain ⟨program, play, host, hprogram, hstart, rfl⟩ := create_eq_ok.mp hcreate
  obtain ⟨view, s', hbuild, hend⟩ := Action.result_bind_eq_ok.mp hstart
  cases hend
  exact create_eq_ok.mpr ⟨program, _, host, hprogram, Action.result_bind_of_ok hbuild, rfl⟩

end Session

namespace LinePlayer

variable {s : Setting}

/-! ## Answers -/

/-- A submission, by what the session answers to it. -/
theorem result_submit (index : Nat) (player : Player) :
    (submit index).result player = match (Session.submit index).result player.session with
      | (.ok .ignored, session) =>
        (.ok (["that choice is not available"], .again), { player with session })
      | (.ok _, session) => (.ok ([], .redraw), { player with session })
      | (.error fault, session) =>
        if fault.kind = .indexOutOfRange then
          (.ok ([fault.message], .again), { player with session })
        else (.error fault, { player with session }) := by
  rcases hsubmit : (Session.submit index).result player.session with ⟨answer, session⟩
  have hattempt : (Player.onSession (Session.submit index)).attempt.result player
      = (.ok answer, { player with session }) := by
    unfold Player.onSession
    rw [Action.result_attempt, Action.result_within, hsubmit]
  unfold submit
  rw [Action.result_bind_of_ok hattempt]
  cases answer with
  | ok outcome => cases outcome <;> rfl
  | error fault =>
    dsimp only
    split <;> rfl

/-- A line that nothing comes of: no command, and if it is an index, one that is refused. -/
structure Idle (session : Session) (line : String) : Prop where
  command : PlayerCommand.ofText? (trim line) = none
  index : ∀ index, index? (trim line) = some index →
    Refused ((Session.submit index).result session).1

theorem answer_idle {player : Player} {line : String} (hidle : Idle player.session line) :
    ∃ lines, (answer s (withoutLineEnd line)).result player = (.ok (lines, .again), player) := by
  unfold answer
  rw [trim_withoutLineEnd, hidle.command]
  dsimp only
  cases hindex : index? (trim line) with
  | none => exact ⟨_, rfl⟩
  | some index =>
    have hrefused := hidle.index index hindex
    dsimp only
    rw [result_submit]
    rcases hsubmit : (Session.submit index).result player.session with ⟨answer, session⟩
    rw [hsubmit] at hrefused
    obtain rfl := Session.eq_of_refused hsubmit hrefused
    cases answer with
    | ok outcome =>
      obtain rfl : outcome = .ignored := hrefused
      exact ⟨_, rfl⟩
    | error fault =>
      have hkind : fault.kind = .indexOutOfRange := hrefused
      dsimp only
      rw [if_pos hkind]
      exact ⟨_, rfl⟩

/-- The line ends the game with a fault: saving or loading failed, or a submission did, and not for an
index out of range. -/
inductive Fails (s : Setting) (player : Player) (line : String) (fault : Fault) : Prop
  | command {c : PlayerCommand} (hcommand : PlayerCommand.ofText? (trim line) = some c)
      (hfiles : c = .save ∨ c = .load)
      (hfails : ((Player.command s c).result player).1 = .error fault)
  | submission {index : Nat} (hcommand : PlayerCommand.ofText? (trim line) = none)
      (hindex : index? (trim line) = some index)
      (hfails : ((Session.submit index).result player.session).1 = .error fault)
      (hkind : fault.kind ≠ .indexOutOfRange)

section Created

variable {i : Indexing} {created : Session} (hcreate : Session.create s.scenario i = .ok created)

include hcreate

theorem result_restart (player : Player) : (Player.command s .restart).result player
    = (.ok "restarted", { player with
        session := created.withIndexing player.session.game.play.indexing }) := by
  have hcreated := Session.create_of_created hcreate player.session.game.play.indexing
  unfold Player.command
  rw [Action.result_bind_of_ok (Action.result_get player), Action.result_ofExcept_bind, hcreated]
  rfl

theorem fails_of_answer {player player' : Player} {line : String} {fault : Fault}
    (hanswer : (answer s (withoutLineEnd line)).result player = (.error fault, player')) :
    Fails s player line fault := by
  unfold answer at hanswer
  rw [trim_withoutLineEnd] at hanswer
  cases hcommand : PlayerCommand.ofText? (trim line) with
  | some c =>
    rw [hcommand] at hanswer
    dsimp only at hanswer
    have hfails : ((Player.command s c).result player).1 = .error fault := by
      rw [Action.result_bind_pure] at hanswer
      cases hresult : ((Player.command s c).result player).1 with
      | ok told =>
        rw [hresult] at hanswer
        cases hanswer
      | error other =>
        rw [hresult] at hanswer
        cases hanswer
        rfl
    cases c with
    | save => exact .command hcommand (.inl rfl) hfails
    | load => exact .command hcommand (.inr rfl) hfails
    | help => cases hfails
    | quit => cases hfails
    | restart =>
      rw [result_restart hcreate player] at hfails
      cases hfails
  | none =>
    rw [hcommand] at hanswer
    dsimp only at hanswer
    cases hindex : index? (trim line) with
    | none =>
      rw [hindex] at hanswer
      cases hanswer
    | some index =>
      rw [hindex] at hanswer
      dsimp only at hanswer
      rw [result_submit] at hanswer
      rcases hsubmit : (Session.submit index).result player.session with ⟨fault' | outcome, session⟩
      · rw [hsubmit] at hanswer
        dsimp only at hanswer
        split at hanswer
        · cases hanswer
        · next hkind =>
          cases hanswer
          exact .submission hcommand hindex (by rw [hsubmit]) hkind
      · rw [hsubmit] at hanswer
        cases outcome <;> cases hanswer

end Created

/-! ## Games -/

/-- How the game stands after an input. -/
def progress (s : Setting) (player : Player) (input : String) : Progress :=
  (linesOf input.toList).foldl (Progress.take s) (begin s player)

theorem run_eq (s : Setting) (player : Player) (input : String) :
    run s player input = ((progress s player input).output,
      (progress s player input).verdict.getD (.ok ()), (progress s player input).player) := rfl

/-- The games stand alike, whatever they have shown. -/
structure Progress.Alike (p q : Progress) : Prop where
  player : p.player = q.player
  verdict : p.verdict = q.verdict

theorem Progress.Alike.showBoundary {p q : Progress} (alike : p.Alike q) :
    p.showBoundary.Alike q.showBoundary := by
  obtain ⟨hplayer, hverdict⟩ := alike
  unfold Progress.showBoundary
  rw [hplayer]
  dsimp only
  cases q.player.session.boundary with
  | finished => exact ⟨hplayer, rfl⟩
  | choices label prompt choices => exact ⟨hplayer, hverdict⟩

theorem Progress.Alike.take {p q : Progress} (alike : p.Alike q) (line : String) :
    (p.take s line).Alike (q.take s line) := by
  unfold Progress.take
  rw [alike.verdict, alike.player]
  cases hverdict : q.verdict with
  | some verdict => exact alike
  | none =>
    dsimp only
    rcases (answer s (withoutLineEnd line)).result q.player with ⟨fault | ⟨lines, next⟩, player⟩
    · exact ⟨rfl, rfl⟩
    · cases next with
      | again => exact ⟨rfl, rfl⟩
      | stop => exact ⟨rfl, rfl⟩
      | redraw =>
        have hwritten : Progress.Alike (Progress.write ⟨player, p.output, none⟩ (linesText lines))
          (Progress.write ⟨player, q.output, none⟩ (linesText lines)) := ⟨rfl, rfl⟩
        exact hwritten.showBoundary

theorem Progress.Alike.foldl (lines : List String) : ∀ {p q : Progress}, p.Alike q →
    (lines.foldl (Progress.take s) p).Alike (lines.foldl (Progress.take s) q) := by
  induction lines with
  | nil => exact fun alike => alike
  | cons line rest ih => exact fun alike => ih (alike.take line)

/-- A line that nothing comes of leaves the game as it was. -/
theorem take_idle {p : Progress} {line : String}
    (hidle : p.verdict = none → Idle p.player.session line) : (p.take s line).Alike p := by
  unfold Progress.take
  cases hverdict : p.verdict with
  | some verdict => exact ⟨rfl, rfl⟩
  | none =>
    obtain ⟨lines, hanswer⟩ := answer_idle (s := s) (hidle hverdict)
    dsimp only
    rw [hanswer]
    exact ⟨rfl, hverdict.symm⟩

/-- Only the answer to a line can fail a game. -/
theorem answer_of_take_error {p : Progress} {line : String} {fault : Fault}
    (hgoing : p.verdict = none) (hfails : (p.take s line).verdict = some (.error fault)) :
    ∃ player, (answer s (withoutLineEnd line)).result p.player = (.error fault, player) := by
  unfold Progress.take at hfails
  rw [hgoing] at hfails
  dsimp only at hfails
  rcases hanswer : (answer s (withoutLineEnd line)).result p.player with
    ⟨other | ⟨lines, next⟩, player⟩
  · rw [hanswer] at hfails
    cases hfails
    exact ⟨player, rfl⟩
  · rw [hanswer] at hfails
    cases next with
    | again => cases hfails
    | stop => cases hfails
    | redraw =>
      dsimp only [Progress.showBoundary] at hfails
      split at hfails <;> cases hfails

/-- A game that fails has a line that failed it. -/
theorem fails_of_foldl {i : Indexing} {created : Session}
    (hcreate : Session.create s.scenario i = .ok created) {fault : Fault} :
    ∀ (lines : List String) {p : Progress}, p.verdict = none →
      (lines.foldl (Progress.take s) p).verdict = some (.error fault) →
      ∃ before line after, lines = before ++ line :: after ∧
        (before.foldl (Progress.take s) p).verdict = none ∧
        Fails s (before.foldl (Progress.take s) p).player line fault
  | [], p, hgoing, hfails => by
    rw [List.foldl_nil, hgoing] at hfails
    cases hfails
  | line :: rest, p, hgoing, hfails => by
    rw [List.foldl_cons] at hfails
    cases hverdict : (p.take s line).verdict with
    | none =>
      obtain ⟨before, last, after, rfl, hbefore, hline⟩ :=
        fails_of_foldl hcreate rest hverdict hfails
      exact ⟨line :: before, last, after, rfl, hbefore, hline⟩
    | some verdict =>
      rw [foldl_take_of_over hverdict] at hfails
      obtain ⟨player, hanswer⟩ := answer_of_take_error hgoing hfails
      exact ⟨[], line, rest, rfl, hgoing, fails_of_answer hcreate hanswer⟩

/-- A line and its end in an input, with what stands before and after it. The last line need have no
end. -/
structure Cut (before line ending after : String) : Prop where
  start : before = "" ∨ ∃ head, before = head ++ "\n"
  single : '\n' ∉ line.toList
  ending : ending = "\n" ∨ ending = "" ∧ after = ""

/-- The lines of an input that a line is cut out of. -/
theorem linesOf_cut {before line ending after : String} (hcut : Cut before line ending after) :
    ∃ cut, (cut = [line] ∨ cut = []) ∧
      linesOf (before ++ line ++ ending ++ after).toList
        = linesOf before.toList ++ cut ++ linesOf after.toList ∧
      linesOf (before ++ after).toList = linesOf before.toList ++ linesOf after.toList := by
  have hbefore : ∀ cs, linesOf (before.toList ++ cs) = linesOf before.toList ++ linesOf cs := by
    intro cs
    rcases hcut.start with rfl | ⟨head, rfl⟩
    · simp
    · have happend := linesOf_append_ended head.toList cs
      simpa using happend
  rcases hcut.ending with rfl | ⟨rfl, rfl⟩
  · refine ⟨[line], .inl rfl, ?_, by rw [String.toList_append, hbefore]⟩
    have hline := linesOf_ended hcut.single after.toList
    simp only [String.toList_append, List.append_assoc, hbefore]
    rw [show ("\n" : String).toList = ['\n'] from rfl, List.singleton_append, hline]
    simp
  · by_cases hempty : line.toList = []
    · refine ⟨[], .inr rfl, ?_, by rw [String.toList_append, hbefore]⟩
      simp [String.toList_append, hempty]
    · refine ⟨[line], .inl rfl, ?_, by rw [String.toList_append, hbefore]⟩
      simp [String.toList_append, hbefore, linesOf_unended hcut.single hempty]

/-- A line that nothing comes of when it is read could as well not be there. -/
theorem run_of_cut {player : Player} {before line ending after : String}
    (hcut : Cut before line ending after)
    (hidle : (progress s player before).verdict = none →
      Idle (progress s player before).player.session line) :
    (run s player (before ++ line ++ ending ++ after)).2 = (run s player (before ++ after)).2 := by
  obtain ⟨cut, hcutLines, hwith, hwithout⟩ := linesOf_cut hcut
  have hwhole : progress s player (before ++ line ++ ending ++ after)
      = (linesOf after.toList).foldl (Progress.take s)
          (cut.foldl (Progress.take s) (progress s player before)) := by
    unfold progress
    rw [hwith, List.foldl_append, List.foldl_append]
  have hshort : progress s player (before ++ after)
      = (linesOf after.toList).foldl (Progress.take s) (progress s player before) := by
    unfold progress
    rw [hwithout, List.foldl_append]
  have hcutAlike : (cut.foldl (Progress.take s) (progress s player before)).Alike
      (progress s player before) := by
    rcases hcutLines with rfl | rfl
    · rw [List.foldl_cons, List.foldl_nil]
      exact take_idle hidle
    · exact ⟨rfl, rfl⟩
  have halike := hcutAlike.foldl (s := s) (linesOf after.toList)
  rw [← hwhole, ← hshort] at halike
  rw [run_eq, run_eq, halike.verdict, halike.player]

theorem fails_of_run {i : Indexing} {created : Session}
    (hcreate : Session.create s.scenario i = .ok created) {player : Player} {input : String}
    {fault : Fault} (hfails : (run s player input).2.1 = .error fault) :
    ∃ before line after, linesOf input.toList = before ++ line :: after ∧
      (before.foldl (Progress.take s) (begin s player)).verdict = none ∧
      Fails s (before.foldl (Progress.take s) (begin s player)).player line fault := by
  have hverdict : (progress s player input).verdict = some (.error fault) := by
    rw [run_eq] at hfails
    have hrun : (progress s player input).verdict.getD (.ok ()) = .error fault := hfails
    cases h : (progress s player input).verdict with
    | none =>
      rw [h] at hrun
      cases hrun
    | some verdict =>
      rw [h] at hrun
      exact congrArg some hrun
  cases hbegin : (begin s player).verdict with
  | none => exact fails_of_foldl hcreate _ hbegin hverdict
  | some verdict =>
    -- the dialogue had ended at once
    unfold progress at hverdict
    rw [foldl_take_of_over hbegin] at hverdict
    unfold begin Progress.showBoundary at hverdict
    dsimp only at hverdict
    split at hverdict <;> cases hverdict

theorem answer_restart {i : Indexing} {created : Session}
    (hcreate : Session.create s.scenario i = .ok created) (player : Player) {line : String}
    (hline : trim line = ":restart") : (answer s (withoutLineEnd line)).result player
      = (.ok (["restarted"], .redraw), { player with
          session := created.withIndexing player.session.game.play.indexing }) := by
  unfold answer
  rw [trim_withoutLineEnd, hline, show PlayerCommand.ofText? ":restart" = some .restart from rfl]
  dsimp only
  rw [Action.result_bind_of_ok (result_restart hcreate player)]
  rfl

/-- Games are prepared with a session that was created for their scenario. -/
theorem created_of_preparePlay {d : Disk} {scripts : String} {stateFile : Option String}
    {vars : List String} {player : Player}
    (hprepare : Command.preparePlay d scripts stateFile vars = .ok (s, player)) :
    Session.create s.scenario .declared = .ok player.session := by
  unfold Command.preparePlay at hprepare
  obtain ⟨scenario, -, hprepare⟩ := bind_eq_ok.mp hprepare
  obtain ⟨values, -, hprepare⟩ := bind_eq_ok.mp hprepare
  obtain ⟨session, hcreate, hend⟩ := bind_eq_ok.mp hprepare
  cases hend
  exact hcreate

/-- **Bad lines are harmless to the line player.** Its loops end on every input. A line can be cut out
of an input if it is neither a command nor an index, or if it is an index out of range or of a choice
that is not open when it is read: the game has the same verdict and leaves the same session and the
same files. Where a session of the scenario could be created at all, a game only fails at a line that
saves or loads in vain, or whose submission fails, and not for an index out of range; and starting
anew always works and gives just what is created for the scenario under the present way of counting.
One could be in every game that is prepared, so such a game fails in no other way either, and to start
it anew takes it back to the session that it was prepared with, but for the way of counting. -/
theorem bad_lines_are_harmless (s : Setting) :
    (∀ player input, ∃ n rest, n ≤ 2 * (linesOf input.toList).length + 2 ∧
      let (output, verdict, last) := run s player input
      (Loop.step s)^[n] (Loop.start s player input) = ⟨.ended verdict, last, rest, output⟩) ∧
    (∀ player before line ending after, Cut before line ending after →
      ((progress s player before).verdict = none →
        Idle (progress s player before).player.session line) →
      (run s player (before ++ line ++ ending ++ after)).2 = (run s player (before ++ after)).2) ∧
    (∀ indexing created, Session.create s.scenario indexing = .ok created →
      (∀ player input fault, (run s player input).2.1 = .error fault →
        ∃ before line after, linesOf input.toList = before ++ line :: after ∧
          let p := before.foldl (Progress.take s) (begin s player)
          p.verdict = none ∧ Fails s p.player line fault) ∧
      ∀ player line, trim line = ":restart" →
        ∃ session, Session.create s.scenario player.session.game.play.indexing = .ok session ∧
          (answer s (withoutLineEnd line)).result player
            = (.ok (["restarted"], .redraw), { player with session })) ∧
    ∀ d scripts stateFile vars prepared,
      Command.preparePlay d scripts stateFile vars = .ok (s, prepared) →
      (∀ input fault, (run s prepared input).2.1 = .error fault →
        ∃ before line after, linesOf input.toList = before ++ line :: after ∧
          let p := before.foldl (Progress.take s) (begin s prepared)
          p.verdict = none ∧ Fails s p.player line fault) ∧
      ∀ player line, trim line = ":restart" →
        (answer s (withoutLineEnd line)).result player
          = (.ok (["restarted"], .redraw), { player with
              session := prepared.session.withIndexing player.session.game.play.indexing }) := by
  refine ⟨fun player input => loop_ends s player input,
    fun _ _ _ _ _ hcut hidle => run_of_cut hcut hidle, fun _ _ hcreate => ⟨?_, ?_⟩,
    fun _ _ _ _ _ hprepare => ⟨?_, ?_⟩⟩
  · exact fun _ _ _ hfails => fails_of_run hcreate hfails
  · exact fun player _ hline =>
      ⟨_, Session.create_of_created hcreate _, answer_restart hcreate player hline⟩
  · exact fun _ _ hfails => fails_of_run (created_of_preparePlay hprepare) hfails
  · exact fun player _ hline => answer_restart (created_of_preparePlay hprepare) player hline

/-- At a label with nothing to choose: an index out of range is cut out, a game that is loaded without a
file fails, and one that has gone on is started anew, as it was prepared. -/
theorem bad_lines_are_harmless_doubling :
    let s : Setting := ⟨Session.doublingScenario 1, "save.json"⟩
    let player : Player := ⟨Session.doublingSession 1, ⟨.folder [], []⟩⟩
    let played : Session := ((Session.submit 0).result player.session).2
    (run s player ("" ++ "7" ++ "\n" ++ "0\n")).2 = (run s player ("" ++ "0\n")).2 ∧
    (∃ fault, (run s player ":load").2.1 = .error fault ∧
      ∃ before line after, linesOf ":load".toList = before ++ line :: after ∧
        Fails s (before.foldl (Progress.take s) (begin s player)).player line fault) ∧
    (answer s (withoutLineEnd " :restart")).result { player with session := played }
      = (.ok (["restarted"], .redraw), player) ∧
    ∃ prepared, Command.preparePlay (Command.doublingDisk none) "demo" (some "save.json") ["x=1"]
        = .ok (s, prepared) ∧
      (answer s (withoutLineEnd ":restart")).result { prepared with session := played }
        = (.ok (["restarted"], .redraw), prepared) := by
  intro s player played
  obtain ⟨-, hcut, hcreated, hprepared⟩ := bad_lines_are_harmless s
  have hcreate : Session.create s.scenario .declared = .ok player.session :=
    Session.create_doublingScenario 1
  obtain ⟨hfails, hrestart⟩ := hcreated .declared player.session hcreate
  refine ⟨?_, ?_, ?_, ?_⟩
  · refine hcut player "" "7" "\n" "0\n" ⟨.inl rfl, by decide, .inl rfl⟩ fun _ => ?_
    have hplayer : (progress s player "").player = player := by
      unfold progress
      rw [show ("" : String).toList = [] from rfl, linesOf_nil]
      rfl
    rw [hplayer]
    refine ⟨by with_unfolding_all rfl, fun index hindex => ?_⟩
    have hseven : index? (trim "7") = some 7 := by decide +kernel
    obtain rfl : 7 = index := Option.some.inj (hseven.symm.trans hindex)
    show Refused (.error (.play (.indexOutOfRange "a" 7 1)))
    rfl
  · have hlines : linesOf ":load".toList = [":load"] := linesOf_unended (by decide) (by decide)
    obtain ⟨fault, hmissing⟩ : ∃ fault,
        Session.loadFor ⟨.folder [], []⟩ "save.json" s.scenario = .error fault := ⟨_, rfl⟩
    have hcommand : (Player.command s .load).result player = (.error fault, player) := by
      unfold Player.command
      rw [Action.result_bind_of_ok (Action.result_get player), Action.result_ofExcept_bind]
      dsimp only [player, s]
      rw [hmissing]
    have hload : PlayerCommand.ofText? (trim ":load") = some .load := by with_unfolding_all rfl
    have hanswer : (answer s (withoutLineEnd ":load")).result player = (.error fault, player) := by
      unfold answer
      rw [trim_withoutLineEnd, hload]
      exact Action.result_bind_of_error hcommand
    have hrun : (run s player ":load").2.1 = .error fault := by
      rw [run_eq]
      unfold progress
      rw [hlines, List.foldl_cons, List.foldl_nil]
      unfold Progress.take
      rw [show (begin s player).verdict = none from rfl,
        show (begin s player).player = player from rfl]
      dsimp only
      rw [hanswer]
      rfl
    obtain ⟨before, line, after, hsplit, -, hline⟩ := hfails player ":load" _ hrun
    exact ⟨_, hrun, before, line, after, hsplit, hline⟩
  · obtain ⟨session, hsession, hanswer⟩ := hrestart { player with session := played } " :restart"
      (by with_unfolding_all rfl)
    obtain rfl : player.session = session := Except.ok.inj (hcreate.symm.trans hsession)
    exact hanswer
  · have hprepare := Command.preparePlay_doublingDisk
    obtain ⟨-, hanew⟩ := hprepared _ _ _ _ _ hprepare
    exact ⟨_, hprepare, hanew _ ":restart" (by with_unfolding_all rfl)⟩

end LinePlayer

end Colloquy
