import Colloquy.Screen
import Mathlib.Algebra.Ring.Nat
import Mathlib.Logic.Function.Iterate

/-!
# The text of the screen

A line of the transcript is first pending, then typed out, then rendered. `Screen.script` is the three
stretches one after the other, and it is all that a screen has been given: to type takes lines from one
stretch to the next and changes nothing about their order (`script_advance`), and a boundary adds its
lines at the end.

How long the typing takes is `Screen.workLeft`, which every step lowers by one
(`workLeft_of_advance`), so that `finish` is just as many steps as it says. For a line that is being
typed this count is meant to be the characters that are not shown yet, and one more step to put the
line away; that no more characters are counted as shown than the line has is the invariant
`Screen.InLine`.

Main statement: `Screen.typing_keeps_script`.
-/

namespace Colloquy

namespace Screen

variable {s t : Screen}

/-! ## The script -/

/-- All lines that a screen has been given, in the order in which they are shown. -/
def script (s : Screen) : List String := s.rendered ++ s.typing.toList ++ s.pending

/-- To type changes how far the script is shown and not the script. -/
theorem script_advance (hnext : s.advance = some t) : t.script = s.script := by
  unfold advance at hnext
  unfold script
  split at hnext
  · next hidle =>
    rw [hidle]
    split at hnext
    · cases hnext
    · next line rest hpending =>
      rw [hpending]
      -- an empty line is put away at once, any other one is taken up
      split at hnext <;> obtain rfl := Option.some.inj hnext
      · simp [hidle]
      · simp
  · next line htyping =>
    rw [htyping]
    split at hnext <;> obtain rfl := Option.some.inj hnext
    · simp
    · simp [htyping]

theorem script_finish (s : Screen) : s.finish.script = s.script := by
  fun_induction finish s with
  | case1 s hdone => rfl
  | case2 s next hnext _ ih => rw [ih, script_advance hnext]

theorem script_withChoices (s : Screen) (boundary : Boundary) :
    (s.withChoices boundary).script = s.script := by
  cases boundary <;> rfl

/-- A boundary adds its lines at the end. -/
theorem script_append (s : Screen) (boundary : Boundary) :
    (s.append boundary).script = s.script ++ boundaryLines boundary := by
  unfold append
  rw [script_withChoices]
  exact (List.append_assoc _ _ _).symm

/-- To start over leaves the lines of the new boundary alone. -/
theorem script_replace (s : Screen) (boundary : Boundary) :
    (s.replace boundary).script = boundaryLines boundary := by
  unfold replace
  rw [script_withChoices]
  rfl

/-! ## The line that is being typed -/

/-- A line that is being typed is not empty, and one of its characters at least is shown. -/
def InLine (s : Screen) : Prop :=
  ∀ line, s.typing = some line → line ≠ "" ∧ 1 ≤ s.typed ∧ s.typed ≤ line.toList.length

theorem inLine_of_idle (hidle : s.typing = none) : s.InLine := fun line htyping => by
  rw [hidle] at htyping
  cases htyping

theorem InLine.advance (h : s.InLine) (hnext : s.advance = some t) : t.InLine := by
  unfold Screen.advance at hnext
  split at hnext
  · next hidle =>
    split at hnext
    · cases hnext
    · next line rest hpending =>
      split at hnext <;> obtain rfl := Option.some.inj hnext
      · exact inLine_of_idle hidle
      · next hline =>
        -- a line is taken up with its first character, which it has
        have hlength : 0 < line.toList.length :=
          List.length_pos_iff.mpr fun hnil => hline (String.toList_eq_nil_iff.mp hnil)
        intro other hother
        obtain rfl := Option.some.inj hother
        exact ⟨hline, Nat.le_refl 1, hlength⟩
  · next line htyping =>
    split at hnext <;> obtain rfl := Option.some.inj hnext
    · exact inLine_of_idle rfl
    · next hmore =>
      intro other hother
      obtain rfl : line = other := Option.some.inj (htyping.symm.trans hother)
      exact ⟨(h line htyping).1, Nat.le_add_left 1 s.typed, Nat.lt_of_not_le hmore⟩

theorem InLine.withChoices (h : s.InLine) (boundary : Boundary) : (s.withChoices boundary).InLine := by
  cases boundary <;> exact h

/-- A boundary may come while a line is half typed. -/
theorem InLine.append (h : s.InLine) (boundary : Boundary) : (s.append boundary).InLine :=
  InLine.withChoices (s := { s with pending := s.pending ++ boundaryLines boundary }) h boundary

theorem inLine_replace (s : Screen) (boundary : Boundary) : (s.replace boundary).InLine :=
  (inLine_of_idle rfl).withChoices boundary

/-! ## How long it takes -/

/-- There is nothing to type exactly when nothing is being typed and no line is pending. -/
theorem advance_eq_none_iff : s.advance = none ↔ s.isTyping = false := by
  unfold advance isTyping
  cases htyping : s.typing with
  | some line =>
    dsimp only
    split <;> simp
  | none =>
    cases hpending : s.pending with
    | nil => simp
    | cons line rest =>
      dsimp only
      split <;> simp

theorem isTyping_eq_false_iff : s.isTyping = false ↔ s.typing = none ∧ s.pending = [] := by
  unfold isTyping
  simp

theorem advance_finish (s : Screen) : s.finish.advance = none := by
  fun_induction finish s with
  | case1 s hdone => exact hdone
  | case2 s next hnext _ ih => exact ih

theorem inLine_finish (s : Screen) : s.finish.InLine :=
  inLine_of_idle (isTyping_eq_false_iff.mp (advance_eq_none_iff.mp s.advance_finish)).1

/-- Where all is shown the script is what is rendered. -/
theorem rendered_of_advance_eq_none (hdone : s.advance = none) : s.rendered = s.script := by
  obtain ⟨hidle, hpending⟩ := isTyping_eq_false_iff.mp (advance_eq_none_iff.mp hdone)
  unfold script
  rw [hidle, hpending]
  simp

theorem linesWork_eq (lines : List String) :
    linesWork lines = (lines.map fun line => line.toList.length + 1).sum := by
  induction lines with
  | nil => rfl
  | cons line rest ih =>
    unfold linesWork
    rw [List.map_cons, List.sum_cons, ih]

theorem workLeft_of_done (hdone : s.advance = none) : s.workLeft = 0 := by
  obtain ⟨hidle, hpending⟩ := isTyping_eq_false_iff.mp (advance_eq_none_iff.mp hdone)
  unfold workLeft
  rw [hidle, hpending]
  rfl

/-- The screen after some steps of typing; `none` if it had nothing to type before they were over. -/
def advances (steps : Nat) (s : Screen) : Option Screen := (·.bind advance)^[steps] (some s)

theorem advances_succ_of_advance (steps : Nat) (hnext : s.advance = some t) :
    s.advances (steps + 1) = t.advances steps := by
  unfold advances
  rw [Function.iterate_succ_apply, Option.bind_some, hnext]

/-- As many steps as there is work left show all of it. -/
theorem advances_workLeft (s : Screen) : s.advances s.workLeft = some s.finish := by
  fun_induction finish s with
  | case1 s hdone => rw [workLeft_of_done hdone]; rfl
  | case2 s next hnext _ ih =>
    -- the first step uses up one of those there is work for
    rw [workLeft_of_advance hnext, advances_succ_of_advance _ hnext]
    exact ih

/-- Two characters take four steps: the empty line before them, each character, and one more. -/
example :
    let s := (blank "ready").replace (.choices "hub" "Hi" [(0, "Go on")])
    (s.advances 4).map (·.rendered) = some ["", "Hi"] ∧ s.advances 5 = none := by
  decide +kernel

/-! ## Runs -/

/-- What can happen to the text of a screen. -/
inductive TextStep
  | replace (boundary : Boundary)
  | append (boundary : Boundary)
  | advance
  | finish

namespace TextStep

/-- The screen after a step. One that has nothing to type stays as it is. -/
def act (s : Screen) : TextStep → Screen
  | replace boundary => s.replace boundary
  | append boundary => s.append boundary
  | advance => s.advance.getD s
  | finish => s.finish

/-- The lines that a screen has been given since it was last started over, after a step. -/
def given (lines : List String) : TextStep → List String
  | replace boundary => boundaryLines boundary
  | append boundary => lines ++ boundaryLines boundary
  | advance | finish => lines

theorem script_act (s : Screen) (step : TextStep) : (step.act s).script = step.given s.script := by
  cases step with
  | replace boundary => exact script_replace s boundary
  | append boundary => exact script_append s boundary
  | advance =>
    show (s.advance.getD s).script = s.script
    cases hnext : s.advance with
    | none => rfl
    | some t => exact script_advance hnext
  | finish => exact script_finish s

theorem inLine_act (h : s.InLine) (step : TextStep) : (step.act s).InLine := by
  cases step with
  | replace boundary => exact inLine_replace s boundary
  | append boundary => exact h.append boundary
  | advance =>
    show (s.advance.getD s).InLine
    cases hnext : s.advance with
    | none => exact h
    | some t => exact h.advance hnext
  | finish => exact inLine_finish s

/-- What a run makes of the script is what it makes of the lines alone. -/
theorem script_run (steps : List TextStep) :
    ∀ s : Screen, (steps.foldl act s).script = steps.foldl given s.script := by
  induction steps with
  | nil => exact fun s => rfl
  | cons step rest ih =>
    intro s
    rw [List.foldl_cons, ih, script_act]
    rfl

theorem inLine_run (steps : List TextStep) : ∀ {s : Screen}, s.InLine → (steps.foldl act s).InLine := by
  induction steps with
  | nil => exact fun h => h
  | cons step rest ih => exact fun h => ih (inLine_act h step)

end TextStep

/-- **Typing neither loses nor repeats nor reorders text, and it ends.** Take any screen that comes of
an empty one by starting over, adding boundaries, typing and finishing, in any order. Its lines, those
that are rendered, the one that is being typed and those that are pending, are the lines of the last
boundary that it was started over with and of those added since, and to type leaves them alone. A line
that is being typed is not empty and at least one and at most all of its characters are shown. There is
nothing to type exactly when nothing is in progress. To finish renders everything and is as many steps
of typing as the pending lines have characters, with one more for each of them, and for a line that is
being typed as many as it has characters to come, with one more; then there is nothing to type. -/
theorem typing_keeps_script (steps : List TextStep) :
    let s := steps.foldl TextStep.act (blank "")
    let lines := steps.foldl TextStep.given []
    s.rendered ++ s.typing.toList ++ s.pending = lines ∧
    (∀ t, s.advance = some t → t.rendered ++ t.typing.toList ++ t.pending = lines) ∧
    (∀ line, s.typing = some line →
      line ≠ "" ∧ 1 ≤ s.typed ∧ s.typed ≤ line.toList.length) ∧
    (s.advance = none ↔ s.isTyping = false) ∧
    s.finish.rendered = lines ∧ s.finish.typing = none ∧ s.finish.pending = [] ∧
    s.advances ((s.pending.map fun line => line.toList.length + 1).sum +
      (match s.typing with
        | none => 0
        | some line => line.toList.length - s.typed + 1)) = some s.finish ∧
    s.finish.advance = none := by
  intro s lines
  have hscript : s.script = lines := TextStep.script_run steps (blank "")
  have hinLine : s.InLine := TextStep.inLine_run steps (inLine_of_idle rfl)
  have hdone : s.finish.advance = none := s.advance_finish
  obtain ⟨hidle, hpending⟩ := isTyping_eq_false_iff.mp (advance_eq_none_iff.mp hdone)
  refine ⟨hscript, fun t hnext => (script_advance hnext).trans hscript, hinLine, advance_eq_none_iff,
    ?_, hidle, hpending, ?_, hdone⟩
  · rw [rendered_of_advance_eq_none hdone, script_finish, hscript]
  · rw [← linesWork_eq, Nat.add_comm, ← s.advances_workLeft]
    congr 1
    unfold workLeft
    cases s.typing <;> rfl

end Screen

end Colloquy
