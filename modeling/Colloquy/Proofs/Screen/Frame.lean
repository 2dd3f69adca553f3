import Colloquy.Proofs.Screen.Row
import Colloquy.Proofs.Text.Width
import Colloquy.Screen.Frame

/-!
# The screen on its terminal

A frame is composed to fit: no line has more characters than the content is wide, and the transcript
gets the lines that the rest leaves over, so that there are as many lines as the terminal is high
(`length_frame`). The terminal does not take one row for each of them. A blank line takes two, and one
with wide characters may take more, and what is below is pushed down and out of the picture. Main
statement, `composed_screen_fits`, with the condition under which the choices, the line about the window
and the line about the keys are in sight; `keys_out_of_sight` is a small screen where they are not.
-/

namespace Colloquy

open Glyph (totalWidth)

namespace Screen

variable {s : Screen} {scenario : Scenario} {stateFile : String} {width height : Nat}

/-! ## The lines of a frame -/

theorem contentWidth_eq (hwidth : 18 ≤ width) : contentWidth width = width - 2 := by
  unfold contentWidth
  omega

theorem contentWidth_ge (width : Nat) : 16 ≤ contentWidth width := Nat.le_max_right _ _

/-- The line between the transcript and the choices. -/
def divider (width : Nat) : FrameLine :=
  .styled .gray (String.ofList (List.replicate (contentWidth width) '─'))

/-- What the player acts by: the choice lines, the line about the window and the one about the keys. -/
def controls (s : Screen) (width : Nat) : List FrameLine :=
  (List.range windowSize).map (s.choiceLine width) ++
    [.styled .gray (s.windowText width), .styled .yellow (truncate (contentWidth width) keysText)]

/-- The frame from top to bottom: four lines about the game, the rows of the transcript, the divider,
the controls and the help. -/
theorem frame_parts (s : Screen) (scenario : Scenario) (stateFile : String) (width height : Nat) :
    ∃ head help : List FrameLine,
      s.frame scenario stateFile width height
        = head ++ (s.visibleRows width height).map .ofText ++ [divider width] ++ s.controls width
          ++ help ∧
      head.length = 4 ∧ help.length = (if s.helpVisible then 1 else 0) ∧
      (∀ line ∈ head, line.text.toList.length ≤ contentWidth width) ∧
      ∀ line ∈ help, line.text.toList.length ≤ contentWidth width := by
  have hfit (text : String) :
      (truncate (contentWidth width) text).toList.length ≤ contentWidth width :=
    length_truncate_le _ text
  refine ⟨_, if s.helpVisible then [.styled .magenta (truncate (contentWidth width) helpText)] else [],
    congrArg (· ++ _) (List.append_assoc _ _ [_, _]), rfl, ?_, ?_, ?_⟩
  · split <;> rfl
  · exact List.forall_mem_cons.mpr ⟨hfit _, List.forall_mem_cons.mpr ⟨hfit _,
      List.forall_mem_cons.mpr ⟨hfit _, List.forall_mem_singleton.mpr (hfit _)⟩⟩⟩
  · split
    · exact List.forall_mem_singleton.mpr (hfit _)
    · exact fun line hline => absurd hline List.not_mem_nil

/-! ## What fits -/

/-- The rows of the transcript are its lines, wrapped at the width of the content. -/
theorem length_le_of_mem_visibleRows :
    ∀ row ∈ s.visibleRows width height, row.toList.length ≤ contentWidth width := by
  intro row hrow
  obtain ⟨line, -, hwrapped⟩ := List.mem_flatMap.mp (List.mem_of_mem_drop hrow)
  have hwidth : 1 ≤ contentWidth width := Nat.le_trans (by decide) (contentWidth_ge width)
  exact (isWrapped_wrap hwidth line).fits row hwrapped

/-- The mark and a text that is cut to what it leaves over. -/
theorem length_choiceLine_le (row : Nat) :
    (s.choiceLine width row).text.toList.length ≤ contentWidth width := by
  have hwidth := contentWidth_ge width
  have hmarked (mark text : String) (hmark : mark.toList.length = 2) :
      (mark ++ truncate (max (contentWidth width - 2) 8) text).toList.length ≤ contentWidth width := by
    have hcut := length_truncate_le (max (contentWidth width - 2) 8) text
    rw [String.toList_append, List.length_append]
    omega
  unfold choiceLine
  dsimp only
  split
  · split
    · exact hmarked "> " _ rfl
    · exact hmarked "  " _ rfl
  · exact Nat.le_trans (by decide : (3 : Nat) ≤ 16) hwidth

theorem length_windowText_le : (s.windowText width).toList.length ≤ contentWidth width := by
  have hwidth := contentWidth_ge width
  unfold windowText
  dsimp only
  split
  · exact length_truncate_le _ _
  · split
    · exact Nat.le_trans (by decide : (5 : Nat) ≤ 16) hwidth
    · exact Nat.le_trans (by decide : (1 : Nat) ≤ 16) hwidth

/-- No line of a frame is wider than the content. -/
theorem length_le_of_mem_frame :
    ∀ line ∈ s.frame scenario stateFile width height,
      line.text.toList.length ≤ contentWidth width := by
  obtain ⟨head, help, hframe, -, -, hhead, hhelp⟩ :=
    s.frame_parts scenario stateFile width height
  rw [hframe]
  unfold controls
  simp only [List.forall_mem_append]
  refine ⟨⟨⟨⟨hhead, ?_⟩, ?_⟩, ?_, ?_⟩, hhelp⟩
  · exact List.forall_mem_map.mpr length_le_of_mem_visibleRows
  · refine List.forall_mem_singleton.mpr ?_
    have hlength : (divider width).text.toList.length = contentWidth width :=
      (congrArg List.length String.toList_ofList).trans List.length_replicate
    exact Nat.le_of_eq hlength
  · exact List.forall_mem_map.mpr fun row _ => length_choiceLine_le row
  · exact List.forall_mem_cons.mpr ⟨length_windowText_le,
      List.forall_mem_singleton.mpr (length_truncate_le _ _)⟩

theorem length_controls (s : Screen) (width : Nat) : (s.controls width).length = 7 := rfl

theorem reservedLines_eq (s : Screen) : s.reservedLines = 12 + (if s.helpVisible then 1 else 0) := rfl

theorem length_frame (s : Screen) (scenario : Scenario) (stateFile : String) (width height : Nat) :
    (s.frame scenario stateFile width height).length
      = (s.visibleRows width height).length + s.reservedLines := by
  obtain ⟨head, help, hframe, hhead, hhelp, -, -⟩ := s.frame_parts scenario stateFile width height
  have hcontrols := s.length_controls width
  rw [hframe, reservedLines_eq]
  simp only [List.length_append, List.length_map, List.length_singleton]
  omega

/-- The rows in sight are the last ones, as many as the other lines leave over. -/
theorem visibleRows_spec (s : Screen) (width : Nat) (hheight : s.reservedLines < height) :
    s.visibleRows width height <:+ s.transcriptRows width ∧
      (s.visibleRows width height).length
        = min (s.transcriptRows width).length (height - s.reservedLines) := by
  refine ⟨List.drop_suffix _ _, ?_⟩
  unfold visibleRows
  dsimp only
  rw [List.length_drop]
  omega

/-! ## What is in sight -/

/-- The lines of a frame down to the one about the keys. -/
def linesToKeys (s : Screen) (scenario : Scenario) (stateFile : String) (width height : Nat) :
    List FrameLine :=
  (s.frame scenario stateFile width height).take (12 + (s.visibleRows width height).length)

/-- Whether the terminal shows all rows of these lines. -/
def KeysInSight (s : Screen) (scenario : Scenario) (stateFile : String) (width height : Nat) : Prop :=
  (s.linesToKeys scenario stateFile width height).flatMap (·.rows width)
    <+: s.picture scenario stateFile width height

/-- The controls stand at the end of these lines, and only the help below them. -/
theorem linesToKeys_spec (s : Screen) (scenario : Scenario) (stateFile : String) (width height : Nat) :
    ∃ above help, s.linesToKeys scenario stateFile width height = above ++ s.controls width ∧
      s.frame scenario stateFile width height
        = s.linesToKeys scenario stateFile width height ++ help ∧
      help.length = (if s.helpVisible then 1 else 0) := by
  obtain ⟨head, help, hframe, hhead, hhelp, -, -⟩ := s.frame_parts scenario stateFile width height
  have hcontrols := s.length_controls width
  have hlength : (head ++ (s.visibleRows width height).map FrameLine.ofText ++ [divider width]
      ++ s.controls width).length = 12 + (s.visibleRows width height).length := by
    simp only [List.length_append, List.length_map, List.length_singleton]
    omega
  have hlines : s.linesToKeys scenario stateFile width height
      = head ++ (s.visibleRows width height).map .ofText ++ [divider width] ++ s.controls width := by
    unfold linesToKeys
    rw [hframe, List.take_left' hlength]
  exact ⟨_, help, hlines, hlines ▸ hframe, hhelp⟩

/-- The keys are in sight when the lines down to theirs take as many rows as there are, or fewer. -/
theorem keysInSight_iff :
    s.KeysInSight scenario stateFile width height ↔
      ((s.linesToKeys scenario stateFile width height).map fun line => (line.rows width).length).sum
        ≤ height := by
  obtain ⟨above, help, -, hframe, -⟩ := s.linesToKeys_spec scenario stateFile width height
  -- the rows of these lines come first, so that only the height can cut them off
  unfold KeysInSight picture
  rw [hframe, List.flatMap_append, List.prefix_take_iff, List.length_flatMap]
  exact and_iff_right (List.prefix_append _ _)

/-- Without wide characters a line takes one row, and a blank line two. -/
theorem keysInSight_iff_of_narrow (hwidth : 18 ≤ width)
    (hnarrow : ∀ line ∈ s.linesToKeys scenario stateFile width height, IsNarrow line.text.toList) :
    s.KeysInSight scenario stateFile width height ↔
      12 + (s.visibleRows width height).length +
        (s.linesToKeys scenario stateFile width height).countP (fun line => decide line.IsBlankLine)
        ≤ height := by
  -- two columns are left free, so that no line is broken for want of room
  have hroom : ∀ line ∈ s.linesToKeys scenario stateFile width height,
      totalWidth line.glyphs < width := fun line hline => by
    have hcells := FrameLine.totalWidth_glyphs_le (hnarrow line hline)
    have hchars := length_le_of_mem_frame line (List.mem_of_mem_take hline)
    have hcontent := contentWidth_eq hwidth
    omega
  have hlength : (s.linesToKeys scenario stateFile width height).length
      = 12 + (s.visibleRows width height).length := by
    have hframe := s.length_frame scenario stateFile width height
    have hreserved := s.reservedLines_eq
    unfold linesToKeys
    rw [List.length_take, hframe]
    omega
  rw [keysInSight_iff, FrameLine.sum_length_rows hroom, hlength]

/-- As long as there are no more choices than the window holds, the line about it is blank. -/
theorem isBlankLine_windowText (hgoing : s.ended = false) (hfew : s.choices.length ≤ windowSize)
    (width : Nat) : (FrameLine.styled .gray (s.windowText width)).IsBlankLine := by
  have htext : s.windowText width = " " := by
    unfold windowText
    dsimp only
    rw [if_neg fun hmore => absurd hmore.2 (Nat.not_lt.mpr hfew), hgoing]
    rfl
  rw [htext]
  decide +kernel

/-- So the keys are out of sight from when the transcript fills the rows that are left for it. -/
theorem not_keysInSight_of_full (hwidth : 18 ≤ width)
    (hnarrow : ∀ line ∈ s.linesToKeys scenario stateFile width height, IsNarrow line.text.toList)
    (hgoing : s.ended = false) (hfew : s.choices.length ≤ windowSize)
    (hfull : height ≤ 12 + (s.visibleRows width height).length) :
    ¬ s.KeysInSight scenario stateFile width height := by
  obtain ⟨above, -, hlines, -, -⟩ := s.linesToKeys_spec scenario stateFile width height
  have hmem : FrameLine.styled .gray (s.windowText width)
      ∈ s.linesToKeys scenario stateFile width height := by
    rw [hlines]
    unfold controls
    simp
  have hcount : 0 < (s.linesToKeys scenario stateFile width height).countP
      (fun line => decide line.IsBlankLine) :=
    List.countP_pos_iff.mpr ⟨_, hmem, decide_eq_true (isBlankLine_windowText hgoing hfew width)⟩
  rw [keysInSight_iff_of_narrow hwidth hnarrow]
  omega

/-- **A composed screen fits, and shows the latest text.** Take any screen and any terminal of at least
18 columns and 13 rows, or 14 with the help shown. No line of the frame has more characters than the
terminal has columns but two, and there are at most as many lines as it has rows. Among them are the
last rows of the wrapped transcript, as many as the other lines leave room for, or all of them. To wrap
a text loses nothing and leaves no row too wide and only the last one short; to truncate it leaves just
the texts that fit alone, and cuts any other to the width, with an ellipsis at the end.

Down to the line about the keys all is in sight exactly when the terminal needs at most its height for
these lines. Without wide characters that is one row for each of them and one more for each that is
blank. -/
theorem composed_screen_fits (s : Screen) (scenario : Scenario) (stateFile : String)
    {width height : Nat} (hwidth : 18 ≤ width)
    (hheight : 13 + (if s.helpVisible then 1 else 0) ≤ height) :
    let frame := s.frame scenario stateFile width height
    let lines := s.linesToKeys scenario stateFile width height
    let rows := s.transcript.flatMap (wrap (width - 2))
    let shown := s.visibleRows width height
    (∀ line ∈ frame, line.text.toList.length ≤ width - 2) ∧ frame.length ≤ height ∧
    (∃ head below, frame = head ++ shown.map .ofText ++ below ∧ head.length = 4 ∧ shown <:+ rows ∧
      shown.length = min rows.length (height - (12 + (if s.helpVisible then 1 else 0)))) ∧
    (∃ above help, lines = above ++ s.controls width ∧ frame = lines ++ help ∧
      help.length = (if s.helpVisible then 1 else 0)) ∧
    (s.KeysInSight scenario stateFile width height ↔
      (lines.map fun line => (line.rows width).length).sum ≤ height) ∧
    ((∀ line ∈ lines, IsNarrow line.text.toList) →
      (s.KeysInSight scenario stateFile width height ↔
        12 + shown.length + lines.countP (fun line => decide line.IsBlankLine) ≤ height)) ∧
    (∀ (w : Nat) (text : String), 1 ≤ w → IsWrapped w text (wrap w text)) ∧
    (∀ (w : Nat) (text : String), truncate w text = text ↔ text.toList.length ≤ w) ∧
    (∀ (w : Nat) (text : String), 1 ≤ w → w < text.toList.length →
      (truncate w text).toList = text.toList.take (w - 1) ++ ['…'] ∧
      (truncate w text).toList.length = w) := by
  intro frame lines rows shown
  have hcontent := contentWidth_eq hwidth
  have hreserved := s.reservedLines_eq
  have hrows : s.transcriptRows width = rows := by
    show s.transcript.flatMap (wrap (contentWidth width)) = rows
    rw [hcontent]
  have hreservedRoom : s.reservedLines < height := by omega
  obtain ⟨hsuffix, hlength⟩ := s.visibleRows_spec width hreservedRoom
  rw [hrows] at hsuffix hlength
  refine ⟨fun line hline => ?_, ?_, ?_, s.linesToKeys_spec scenario stateFile width height,
    keysInSight_iff, keysInSight_iff_of_narrow hwidth, fun w text hw => isWrapped_wrap hw text,
    fun w text => truncate_eq_self_iff, fun w text hw hwide =>
      ⟨toList_truncate hw hwide, length_truncate hw hwide⟩⟩
  · rw [← hcontent]
    exact length_le_of_mem_frame line hline
  · show (s.frame scenario stateFile width height).length ≤ height
    rw [length_frame, hlength]
    omega
  · obtain ⟨head, help, hframe, hhead, -, -, -⟩ := s.frame_parts scenario stateFile width height
    refine ⟨head, [divider width] ++ s.controls width ++ help, ?_, hhead, hsuffix, hlength⟩
    show s.frame scenario stateFile width height = _
    rw [hframe]
    simp only [List.append_assoc]
    rfl

/-- A screen that waits for the first choice of a game. -/
def waiting : Screen :=
  { ((blank "ready").replace (.choices "a" "A" [(0, "Continue...")])).finish with
    hostSummary := "pawn (0, 0, 0)" }

/-- A scenario to be played on it. -/
def waitingScenario : Scenario := ⟨"scripts-dir:/demo", "Scripts demo", .ofList [], .empty⟩

/-- The characters of its frames are narrow: those of the texts, the ellipsis and the line. -/
theorem isNarrow_waiting {height : Nat}
    (hchars : ((waiting.linesToKeys waitingScenario "save.json" 18 height).all fun line =>
      line.text.toList.all fun c =>
        decide (c.toNat < 0x1100) || c == '…' || c == '─') = true) :
    ∀ line ∈ waiting.linesToKeys waitingScenario "save.json" 18 height,
      IsNarrow line.text.toList := by
  intro line hline c hc
  have hc := List.all_eq_true.mp (List.all_eq_true.mp hchars line hline) c hc
  simp only [Bool.or_eq_true, decide_eq_true_eq, beq_iff_eq] at hc
  rcases hc with (hlow | rfl) | rfl
  · exact charCells_le_one_of_lt hlow
  · decide +kernel
  · decide +kernel

/-- On the smallest terminal, the four choice lines without a choice and the line about the window are
blank and take two rows each, and the keys are pushed out of the picture. -/
theorem keys_out_of_sight :
    waiting.helpVisible = false ∧ ¬ waiting.KeysInSight waitingScenario "save.json" 18 13 := by
  refine ⟨by decide +kernel, ?_⟩
  exact not_keysInSight_of_full (Nat.le_refl 18) (isNarrow_waiting (by decide +kernel))
    (by decide +kernel) (by decide +kernel) (by decide +kernel)

/-- With six rows more there is room for all of them. -/
theorem composed_screen_fits_waiting :
    18 ≤ 18 ∧ 13 + (if waiting.helpVisible then 1 else 0) ≤ 19 ∧
      waiting.KeysInSight waitingScenario "save.json" 18 19 := by
  have hheight : 13 + (if waiting.helpVisible then 1 else 0) ≤ 19 := by decide +kernel
  refine ⟨Nat.le_refl 18, hheight, ?_⟩
  obtain ⟨-, -, -, -, -, hsight, -⟩ :=
    composed_screen_fits waiting waitingScenario "save.json" (Nat.le_refl 18) hheight
  exact (hsight (isNarrow_waiting (by decide +kernel))).mpr (by decide +kernel)

end Screen

end Colloquy
