import Colloquy.Proofs.Screen.Follows
import Colloquy.Screen.Frame

/-!
# The mark stays in the window

The place of the mark and the place of the window are two numbers that are moved apart from each
other: up and down move the first and let the second follow, each by a rule of its own, and every new
list of choices sets both back. The invariant is `Screen.InWindow`: the mark is on a choice that the
window shows, and the window is at the first choice or has no row to spare. It does not depend on
where the choices come from, so the player behind the screen may be any at any time.

What anything can do to a screen, as far as its choices go, is said once (`Screen.Redrawn`): they are
left alone, the mark is moved up or down, or another list is shown. Main statement,
`FullScreen.mark_stays_in_window`: the invariant holds after every sequence of keys, ticks and
boundaries, and so exactly one of the five rows bears the mark, that of the choice which Enter submits.
-/

namespace Colloquy

namespace Screen

variable {s t : Screen}

/-! ## The invariant -/

/-- The mark is on one of the choices, inside the window, and the window is at the first choice or
full. Where there are no choices both stand at the start, as they do once the dialogue has ended. -/
structure InWindow (s : Screen) : Prop where
  listed : s.choices ≠ [] → s.selected < s.choices.length
  unlisted : s.choices = [] → s.selected = 0
  notAbove : s.scroll ≤ s.selected
  notBelow : s.selected < s.scroll + windowSize
  full : s.scroll = 0 ∨ s.scroll + windowSize ≤ s.choices.length
  ended : s.ended = true → s.choices = []

theorem InWindow.of_sameMark (h : s.InWindow) (hsame : s.SameMark t) : t.InWindow := by
  obtain ⟨hchoices, hended, hselected, hscroll⟩ := hsame
  constructor
  · rw [hchoices, hselected]
    exact h.listed
  · rw [hchoices, hselected]
    exact h.unlisted
  · rw [hscroll, hselected]
    exact h.notAbove
  · rw [hscroll, hselected]
    exact h.notBelow
  · rw [hscroll, hchoices]
    exact h.full
  · rw [hended, hchoices]
    exact h.ended

/-- To show the choices of a boundary sets the mark and the window back. -/
theorem inWindow_withChoices (s : Screen) (boundary : Boundary) : (s.withChoices boundary).InWindow := by
  cases boundary with
  | finished =>
    exact ⟨fun hlisted => absurd rfl hlisted, fun _ => rfl, Nat.le_refl 0, Nat.succ_pos 4, .inl rfl,
      fun _ => rfl⟩
  | choices label prompt choices =>
    exact ⟨fun hlisted => List.length_pos_iff.mpr hlisted, fun _ => rfl, Nat.le_refl 0, Nat.succ_pos 4,
      .inl rfl, fun hended => Bool.noConfusion hended⟩

theorem InWindow.up (h : s.InWindow) : s.up.InWindow := by
  obtain ⟨hlisted, hunlisted, habove, hbelow, hfull, hended⟩ := h
  -- a mark that leaves the window at its top takes the window along
  have hscroll : s.up.scroll = min (s.selected - 1) s.scroll := by
    show (if s.selected - 1 < s.scroll then s.selected - 1 else s.scroll) = _
    split <;> omega
  have hselected : s.up.selected = s.selected - 1 := rfl
  refine ⟨fun hchoices => ?_, fun hchoices => ?_, ?_, ?_, ?_, hended⟩
  · exact Nat.lt_of_le_of_lt (Nat.sub_le _ 1) (hlisted hchoices)
  · rw [hselected, hunlisted hchoices]
  · omega
  · omega
  · show s.up.scroll = 0 ∨ s.up.scroll + windowSize ≤ s.choices.length
    omega

theorem InWindow.down (h : s.InWindow) : s.down.InWindow := by
  obtain ⟨hlisted, hunlisted, habove, hbelow, hfull, hended⟩ := h
  have hempty : s.choices ≠ [] ↔ 0 < s.choices.length := List.length_pos_iff.symm
  have hzero : s.choices = [] ↔ s.choices.length = 0 := List.length_eq_zero_iff.symm
  rw [hempty] at hlisted
  rw [hzero] at hunlisted
  have hsize : windowSize = 5 := rfl
  have hselected : s.down.selected = min (s.selected + 1) (s.choices.length - 1) := rfl
  have hmarked : s.choices ≠ [] → s.down.selected < s.choices.length := fun hchoices => by
    have hpos := hempty.mp hchoices
    omega
  have hnone : s.choices = [] → s.down.selected = 0 := fun hchoices => by
    have hlength := hzero.mp hchoices
    omega
  -- the window follows a mark that leaves it at its bottom, and has that mark in its last row
  obtain ⟨hleft, hscroll⟩ | ⟨hinside, hscroll⟩ :
      (s.scroll + windowSize ≤ s.down.selected ∧ s.down.scroll = s.down.selected - windowSize + 1) ∨
        (s.down.selected < s.scroll + windowSize ∧ s.down.scroll = s.scroll) := by
    have hrule : s.down.scroll
        = if windowSize < s.choices.length ∧ s.scroll + windowSize ≤ s.down.selected then
            s.down.selected - windowSize + 1 else s.scroll := rfl
    split at hrule
    · next hfollows => exact .inl ⟨hfollows.2, hrule⟩
    · exact .inr ⟨by omega, hrule⟩
  · refine ⟨hmarked, hnone, by omega, by omega, .inr ?_, hended⟩
    show s.down.scroll + windowSize ≤ s.choices.length
    omega
  · refine ⟨hmarked, hnone, by omega, by omega, ?_, hended⟩
    rw [hscroll]
    exact hfull

/-- Of seven choices the last one is marked after six steps down, and the window shows the last five. -/
example :
    let choices := (List.range 7).map fun place => (place, "Go on")
    let s := down^[6] ((blank "ready").withChoices (.choices "hub" "Where to?" choices))
    s.selected = 6 ∧ s.scroll = 2 := by
  decide +kernel

/-! ## What can be done to a screen -/

/-- What can become of the choices of a screen: they are left alone, the mark is moved up or down, or
the choices of a boundary are shown. -/
inductive Redrawn (s t : Screen) : Prop
  | same (hsame : s.SameMark t)
  | up (hsame : s.up.SameMark t)
  | down (hsame : s.down.SameMark t)
  | shown (before : Screen) (boundary : Boundary) (hsame : (before.withChoices boundary).SameMark t)

theorem Redrawn.then_same {u : Screen} (h : s.Redrawn t) (hsame : t.SameMark u) : s.Redrawn u := by
  cases h with
  | same h => exact .same (h.trans hsame)
  | up h => exact .up (h.trans hsame)
  | down h => exact .down (h.trans hsame)
  | shown before boundary h => exact .shown before boundary (h.trans hsame)

theorem redrawn_append (s : Screen) (boundary : Boundary) : s.Redrawn (s.append boundary) :=
  .shown _ boundary (.refl _)

theorem redrawn_replace (s : Screen) (boundary : Boundary) : s.Redrawn (s.replace boundary) :=
  .shown _ boundary (.refl _)

theorem InWindow.redrawn (h : s.InWindow) (hredrawn : s.Redrawn t) : t.InWindow := by
  cases hredrawn with
  | same hsame => exact h.of_sameMark hsame
  | up hsame => exact h.up.of_sameMark hsame
  | down hsame => exact h.down.of_sameMark hsame
  | shown before boundary hsame => exact (inWindow_withChoices before boundary).of_sameMark hsame

end Screen

namespace FullScreen

variable {s : Setting} {f : FullScreen}

/-! ## Keys -/

theorem redrawn_command (c : PlayerCommand) :
    f.screen.Redrawn ((command s c).result f).2.screen := by
  rcases hcommand : (Player.command s c).result f.player with ⟨fault | line, player⟩
  · rw [result_command_of_error hcommand]
    exact .same (.refl _)
  · rw [result_command_of_ok hcommand]
    refine Screen.Redrawn.then_same ?_ (Screen.sameMark_withHost _ _)
    cases c with
    | help | save | quit => exact .same (Screen.sameMark_withStatus _ line)
    | load => exact .shown _ _ (.refl _)
    | restart => exact .shown _ _ (.refl _)

theorem redrawn_move {g : Screen → Screen} (hg : f.screen.Redrawn (g f.screen)) :
    f.screen.Redrawn ((move g).result f).2.screen := by
  unfold move draw
  rw [Action.result_modify]
  dsimp only
  split
  · exact .same (Screen.sameMark_withStatus _ _)
  · exact hg

theorem redrawn_submit : f.screen.Redrawn (submit.result f).2.screen := by
  cases hmarked : f.screen.choices[f.screen.selected]? with
  | none =>
    unfold submit
    rw [Action.result_bind_of_ok (Action.result_get f)]
    dsimp only
    rw [hmarked]
    exact .same (.refl _)
  | some choice =>
    rw [result_submit hmarked]
    rcases (Session.submit choice.1).result f.player.session with ⟨answer, session⟩
    have hshown (text : String) : f.screen.Redrawn
        (((f.screen.append session.boundary).withHost session.game.host).withStatus text) :=
      ((Screen.redrawn_append _ _).then_same (Screen.sameMark_withHost _ _)).then_same
        (Screen.sameMark_withStatus _ _)
    cases answer with
    | ok outcome =>
      cases outcome with
      | ignored => exact .same (Screen.sameMark_withStatus _ _)
      | entered label => exact hshown _
      | ended => exact hshown _
    | error fault =>
      dsimp only
      split
      · exact .same (Screen.sameMark_withStatus _ _)
      · exact .same (.refl _)

theorem redrawn_enter : f.screen.Redrawn (enter.result f).2.screen := by
  unfold enter
  rw [Action.result_bind_of_ok (Action.result_get f)]
  dsimp only
  split
  · exact .same (Screen.sameMark_finish _)
  · split
    · exact .same (Screen.sameMark_withStatus _ _)
    · exact redrawn_submit

/-- What a key does to the choices, also where it fails. -/
theorem redrawn_press (key : Key) : f.screen.Redrawn ((press s key).result f).2.screen := by
  unfold press
  split
  · exact .same (.refl _)
  · split
    · rw [Action.result_bind_pure]
      exact redrawn_command _
    · split
      · exact .same ⟨rfl, rfl, rfl, rfl⟩
      · rw [Action.result_bind_pure]
        exact redrawn_move (.up (.refl _))
      · rw [Action.result_bind_pure]
        exact redrawn_move (.down (.refl _))
      · rw [Action.result_bind_pure]
        exact redrawn_enter
      · exact .same (.refl _)

/-! ## Runs -/

/-- What can happen to a screen, whatever it shows: an event of the player behind it, a boundary that
is appended or put in place of all there is, and another player behind it. -/
inductive Change
  | event (event : Event)
  | append (boundary : Boundary)
  | replace (boundary : Boundary)
  | player (player : Player)

/-- The player after a change. -/
def change (s : Setting) (f : FullScreen) : Change → FullScreen
  | .event event => take s f event
  | .append boundary => { f with screen := f.screen.append boundary }
  | .replace boundary => { f with screen := f.screen.replace boundary }
  | .player player => { f with player }

theorem redrawn_take (event : Event) : f.screen.Redrawn (take s f event).screen := by
  cases event with
  | key key =>
    have hpress : f.screen.Redrawn ((press s key).result f).2.screen := redrawn_press key
    unfold take
    dsimp only
    rcases hresult : (press s key).result f with ⟨fault | quit, after⟩
    · rw [hresult] at hpress
      exact hpress.then_same (Screen.sameMark_withStatus _ _)
    · rw [hresult] at hpress
      exact hpress
  | tick =>
    unfold take
    dsimp only
    split
    · next screen hnext => exact .same (Screen.sameMark_advance hnext)
    · exact .same (.refl _)
  | files disk => exact .same (.refl _)

theorem redrawn_change (c : Change) : f.screen.Redrawn (change s f c).screen := by
  cases c with
  | event event => exact redrawn_take event
  | append boundary => exact Screen.redrawn_append _ _
  | replace boundary => exact Screen.redrawn_replace _ _
  | player player => exact .same (.refl _)

theorem inWindow_changes (changes : List Change) :
    ∀ {f : FullScreen}, f.screen.InWindow → (changes.foldl (change s) f).screen.InWindow := by
  induction changes with
  | nil => exact fun h => h
  | cons c rest ih => exact fun h => ih (h.redrawn (redrawn_change c))

/-- Enter leaves the session that the submission of the marked choice leaves, whatever comes of it. -/
theorem session_of_enter (hfree : f.screen.blocked? = none) {index : Nat} {text : String}
    (hmarked : f.screen.choices[f.screen.selected]? = some (index, text)) :
    ((press s .enter).result f).2.player.session
      = ((Session.submit index).result f.player.session).2 := by
  have hpress : ((press s .enter).result f).2 = (submit.result f).2 := by
    rw [← enter_of_free hfree]
    exact congrArg Prod.snd (Action.result_bind_pure enter (fun _ => false) f)
  rw [hpress, result_submit hmarked]
  rcases (Session.submit index).result f.player.session with ⟨answer, session⟩
  cases answer with
  | ok outcome => cases outcome <;> rfl
  | error fault =>
    dsimp only
    split <;> rfl

end FullScreen

namespace Screen

variable {s : Screen} {width : Nat}

/-! ## What is shown -/

/-- Choices are shown when there are some and nothing is being typed. -/
theorem showsChoices_iff : s.showsChoices = true ↔ s.isTyping = false ∧ s.choices ≠ [] := by
  unfold showsChoices
  simp

/-- Where choices are shown nothing stands against choosing. -/
theorem InWindow.blocked?_eq_none (h : s.InWindow) (hshows : s.showsChoices = true) :
    s.blocked? = none := by
  obtain ⟨htyped, hlisted⟩ := showsChoices_iff.mp hshows
  have hgoing : s.ended = false := Bool.eq_false_iff.mpr fun hended => hlisted (h.ended hended)
  exact blocked?_of_listed htyped hgoing hlisted

/-- Whether a line starts with the mark. -/
def IsMarked (line : FrameLine) : Prop := ['>', ' '] <+: line.text.toList

/-- The five choice lines of a frame stand one below the other, and the line about the window below
them. -/
theorem frame_eq (s : Screen) (scenario : Scenario) (stateFile : String) (width height : Nat) :
    ∃ above below, s.frame scenario stateFile width height
      = above ++ (List.range windowSize).map (s.choiceLine width)
        ++ .styled .gray (s.windowText width) :: below :=
  ⟨_, _, List.append_assoc _ [_, _] _⟩

/-- A choice line, by the choice it shows. -/
theorem choiceLine_of_shown (hshows : s.showsChoices = true) {row index : Nat} {text : String}
    (hplace : s.choices[s.scroll + row]? = some (index, text)) :
    s.choiceLine width row =
      if s.scroll + row = s.selected then
        .styled .green ("> " ++ truncate (max (contentWidth width - 2) 8) text)
      else .styled .plain ("  " ++ truncate (max (contentWidth width - 2) 8) text) := by
  unfold choiceLine
  dsimp only
  rw [if_pos hshows, hplace]

theorem choiceLine_of_blank (hshows : s.showsChoices = true) {row : Nat}
    (hplace : s.choices[s.scroll + row]? = none) : s.choiceLine width row = .styled .plain "   " := by
  unfold choiceLine
  dsimp only
  rw [if_pos hshows, hplace]

theorem isMarked_styled (colour : Colour) (text : String) : IsMarked (.styled colour ("> " ++ text)) := by
  show ['>', ' '] <+: ("> " ++ text).toList
  rw [String.toList_append]
  exact List.prefix_append _ _

theorem not_isMarked_styled (colour : Colour) (text : String) :
    ¬ IsMarked (.styled colour ("  " ++ text)) := by
  show ¬ ['>', ' '] <+: ("  " ++ text).toList
  rw [String.toList_append]
  intro hmarked
  obtain ⟨rest, hrest⟩ := hmarked
  exact absurd (List.cons.inj hrest).1 (by decide)

/-- The line of the marked choice bears the mark, and no other line does. -/
theorem isMarked_choiceLine (h : s.InWindow) (hshows : s.showsChoices = true) (row : Nat) :
    IsMarked (s.choiceLine width row) ↔ s.scroll + row = s.selected := by
  cases hplace : s.choices[s.scroll + row]? with
  | none =>
    have hbehind := List.getElem?_eq_none_iff.mp hplace
    have hmark := h.listed (showsChoices_iff.mp hshows).2
    rw [choiceLine_of_blank hshows hplace]
    exact iff_of_false (not_isMarked_styled .plain " ") (by omega)
  | some choice =>
    rw [choiceLine_of_shown hshows hplace]
    split
    · next hmark => exact iff_of_true (isMarked_styled _ _) hmark
    · next hother => exact iff_of_false (not_isMarked_styled _ _) hother

/-- How the screen shows that a choice with the given text is marked: of the five choice lines that of
the choice bears the mark, and no other does. If there is a line about the window, it tells of places
that there are. -/
structure ShowsMark (s : Screen) (width row : Nat) (text : String) : Prop where
  inside : row < windowSize
  place : s.scroll + row = s.selected
  line : s.choiceLine width row
    = .styled .green ("> " ++ truncate (max (contentWidth width - 2) 8) text)
  alone : ∀ other < windowSize, IsMarked (s.choiceLine width other) ↔ other = row
  bounds : windowSize < s.choices.length → ∃ first last,
    s.windowText width
        = truncate (contentWidth width) s!"window {first}-{last} / {s.choices.length}" ∧
      1 ≤ first ∧ first ≤ last ∧ last ≤ s.choices.length

theorem InWindow.showsMark (h : s.InWindow) (hshows : s.showsChoices = true) {index : Nat}
    {text : String} (hmarked : s.choices[s.selected]? = some (index, text)) (width : Nat) :
    s.ShowsMark width (s.selected - s.scroll) text := by
  have habove := h.notAbove
  have hbelow := h.notBelow
  have hplace : s.scroll + (s.selected - s.scroll) = s.selected := by omega
  refine ⟨by omega, hplace, ?_, fun other _ => ?_, fun hmore => ?_⟩
  · rw [← hplace] at hmarked
    rw [choiceLine_of_shown hshows hmarked, if_pos hplace]
  · rw [isMarked_choiceLine h hshows other]
    omega
  · refine ⟨s.scroll + 1, min (s.scroll + windowSize) s.choices.length, ?_, ?_, ?_, ?_⟩
    · unfold windowText
      dsimp only
      rw [if_pos ⟨hshows, hmore⟩]
    · omega
    · have hfull := h.full
      have hsize : windowSize = 5 := rfl
      omega
    · omega

end Screen

namespace FullScreen

/-- **The marked choice is always inside the window.** Start a screen over with any boundary and let
keys be pressed, characters be typed, and boundaries be appended or put in place of all there is, in
any order and whoever plays behind the screen. Without choices the mark and the window stand at the
start. Otherwise the mark is on a choice and in the window, and the window is at the first choice or
shows five. And whenever choices are shown, exactly one of the five choice lines of the frame bears the
mark, the line of the choice that Enter submits, and the line about the window tells of places that
there are. -/
theorem mark_stays_in_window (s : Setting) (screen : Screen) (boundary : Boundary) (player : Player)
    (changes : List Change) :
    let f := changes.foldl (change s) ⟨screen.replace boundary, player⟩
    let count := f.screen.choices.length
    (count = 0 → f.screen.selected = 0 ∧ f.screen.scroll = 0) ∧
    (0 < count → f.screen.selected < count ∧ f.screen.scroll ≤ f.screen.selected ∧
      f.screen.selected < f.screen.scroll + 5 ∧
      (f.screen.scroll = 0 ∨ f.screen.scroll + 5 ≤ count)) ∧
    (f.screen.showsChoices = true → ∀ scenario stateFile width height,
      ∃ above below row index text,
        f.screen.frame scenario stateFile width height
            = above ++ (List.range 5).map (f.screen.choiceLine width)
              ++ .styled .gray (f.screen.windowText width) :: below ∧
          f.screen.choices[f.screen.selected]? = some (index, text) ∧
          f.screen.ShowsMark width row text ∧
          ((press s .enter).result f).2.player.session
            = ((Session.submit index).result f.player.session).2) := by
  intro f count
  have h : f.screen.InWindow := inWindow_changes changes (Screen.inWindow_withChoices _ boundary)
  have hsize : Screen.windowSize = 5 := rfl
  have hfull : f.screen.scroll = 0 ∨ f.screen.scroll + 5 ≤ count := h.full
  refine ⟨fun hnone => ?_, fun hsome => ?_, fun hshows scenario stateFile width height => ?_⟩
  · exact ⟨h.unlisted (List.length_eq_zero_iff.mp hnone), by omega⟩
  · exact ⟨h.listed (List.length_pos_iff.mp hsome), h.notAbove, h.notBelow, hfull⟩
  · obtain ⟨above, below, hframe⟩ := f.screen.frame_eq scenario stateFile width height
    have hlisted := (Screen.showsChoices_iff.mp hshows).2
    obtain ⟨⟨index, text⟩, hmarked⟩ : ∃ choice, f.screen.choices[f.screen.selected]? = some choice :=
      ⟨_, List.getElem?_eq_getElem (h.listed hlisted)⟩
    exact ⟨above, below, _, index, text, hframe, hmarked, h.showsMark hshows hmarked width,
      session_of_enter (h.blocked?_eq_none hshows) hmarked⟩

end FullScreen

end Colloquy
