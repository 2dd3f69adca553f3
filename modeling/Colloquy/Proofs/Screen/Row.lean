import Colloquy.Screen.Row
import Mathlib.Algebra.Ring.Nat
import Mathlib.Data.List.Flatten

/-!
# Lines that need no breaking

How many rows a line takes on a terminal. A line with fewer cells than the terminal is wide is never
broken for want of room: what has been read of it stands in the row, the blanks behind the row and the
word behind these (`LineBreaking.Holds`). It still takes two rows if it is made of blanks alone
(`FrameLine.rows_of_lt`), as the blanks stand behind a row without a word, which is put away first.

A line of narrow characters has no more cells than characters (`FrameLine.totalWidth_glyphs_le`).
-/

namespace Colloquy

/-! ## Cells -/

/-- Whether no character takes two cells by itself. -/
def IsNarrow (cs : List Char) : Prop := ∀ c ∈ cs, charCells c ≤ 1

theorem IsNarrow.of_sublist {cs ds : List Char} (h : IsNarrow ds) (hsub : cs.Sublist ds) :
    IsNarrow cs :=
  fun c hc => h c (hsub.mem hc)

/-- The wide characters start with the consonants of Hangul. -/
theorem charCells_le_one_of_lt {c : Char} (hlow : c.toNat < 0x1100) : charCells c ≤ 1 := by
  have hwide : inRanges wideRanges c = false := by
    have hstart : wideRanges.all (fun range => decide (0x1100 ≤ range.1)) = true := by decide
    refine List.any_eq_false.mpr fun range hrange hin => ?_
    have hrange := of_decide_eq_true (List.all_eq_true.mp hstart range hrange)
    simp only [Bool.and_eq_true, decide_eq_true_eq] at hin
    omega
  unfold charCells
  split
  · exact Nat.zero_le 1
  · rw [hwide]
    exact Nat.le_refl 1

/-- A wide emoji is made of two characters, so that even these take a cell each. -/
theorem cells_le_length {cs : List Char} (h : IsNarrow cs) : cells cs ≤ cs.length := by
  fun_induction cells cs with
  | case1 rest ih =>
    have hrest := ih (h.of_sublist (by simp))
    simp only [List.length_cons]
    omega
  | case2 c rest ih =>
    have hrest := ih (h.of_sublist (by simp))
    have hfirst : charCells c ≤ 1 := h c (List.mem_cons_self ..)
    simp only [List.length_cons]
    split <;> omega
  | case3 c rest hne hne' ih =>
    have hrest := ih (h.of_sublist (by simp))
    have hfirst : charCells c ≤ 1 := h c (List.mem_cons_self ..)
    simp only [List.length_cons]
    omega
  | case4 => exact Nat.le_refl 0

namespace Glyph

theorem totalWidth_append (gs more : List Glyph) :
    totalWidth (gs ++ more) = totalWidth gs + totalWidth more := by
  unfold totalWidth
  induction gs with
  | nil => simp
  | cons g rest ih =>
    rw [List.cons_append, List.foldr_cons, List.foldr_cons, ih, Nat.add_assoc]

theorem totalWidth_singleton (g : Glyph) : totalWidth [g] = g.width := rfl

theorem totalWidth_map_ofCluster_le (parts : List (List Char)) (h : IsNarrow parts.flatten) :
    totalWidth (parts.map ofCluster) ≤ parts.flatten.length := by
  induction parts with
  | nil => exact Nat.le_refl 0
  | cons part rest ih =>
    rw [List.flatten_cons] at h ⊢
    have hpart : cells part ≤ part.length :=
      cells_le_length (h.of_sublist (List.sublist_append_left _ _))
    have hrest := ih (h.of_sublist (List.sublist_append_right _ _))
    rw [List.length_append]
    exact Nat.add_le_add hpart hrest

end Glyph

/-! ## Breaking -/

namespace LineBreaking

open Glyph (totalWidth totalWidth_append totalWidth_singleton)

variable {width : Nat} {b : LineBreaking} {read : List Glyph} {g : Glyph}

/-- Nothing is put away of what has been read, and as long as that is blank it is all in the blanks. -/
structure Holds (b : LineBreaking) (read : List Glyph) : Prop where
  full : b.full = []
  all : b.row ++ b.blanks ++ b.word = read
  blanks : ∀ g ∈ b.blanks, g.isBlank = true
  word : b.inWord = false → b.word = []
  blank : (∀ g ∈ read, g.isBlank = true) → b.row = [] ∧ b.word = [] ∧ b.inWord = false

theorem holds_start : Holds start [] :=
  ⟨rfl, rfl, fun _ h => absurd h List.not_mem_nil, fun _ => rfl, fun _ => ⟨rfl, rfl, rfl⟩⟩

theorem Holds.width_eq (h : b.Holds read) :
    totalWidth b.row + (totalWidth b.blanks + totalWidth b.word) = totalWidth read := by
  rw [← h.all, totalWidth_append, totalWidth_append, Nat.add_assoc]

theorem Holds.settle (h : b.Holds read) (hword : b.inWord = true) : b.settle.Holds read := by
  refine ⟨h.full, ?_, fun _ hg => absurd hg List.not_mem_nil, fun _ => rfl, fun hblank => ?_⟩
  · simp only [LineBreaking.settle, List.append_nil]
    exact h.all
  · have hidle := (h.blank hblank).2.2
    rw [hword] at hidle
    cases hidle

/-- Before a blank the word is put into the row, so that it does not get behind the blank. -/
theorem Holds.settleFor (h : b.Holds read) (g : Glyph) :
    let b' := if (b.inWord && g.isBlank) = true then b.settle else b
    b'.Holds read ∧ (g.isBlank = true → b'.word = []) := by
  intro b'
  by_cases hword : b.inWord = true
  · by_cases hblank : g.isBlank = true
    · have hb' : b' = b.settle := if_pos (by rw [hword, hblank]; rfl)
      rw [hb']
      exact ⟨h.settle hword, fun _ => rfl⟩
    · have hb' : b' = b := if_neg (by simp [hblank])
      rw [hb']
      exact ⟨h, fun hg => absurd hg hblank⟩
  · have hb' : b' = b := if_neg (by simp [hword])
    rw [hb']
    exact ⟨h, fun _ => h.word (Bool.eq_false_iff.mpr hword)⟩

theorem Holds.push (h : b.Holds read) (hword : g.isBlank = true → b.word = []) :
    (b.push g).Holds (read ++ [g]) := by
  unfold LineBreaking.push
  split
  · next hblank =>
    have hempty := hword hblank
    refine ⟨h.full, ?_, ?_, fun _ => hempty, fun hall => ?_⟩
    · rw [← h.all, hempty]
      simp
    · exact List.forall_mem_append.mpr ⟨h.blanks, List.forall_mem_singleton.mpr hblank⟩
    · have hidle := h.blank fun other hother => hall other (List.mem_append_left _ hother)
      exact ⟨hidle.1, hidle.2.1, rfl⟩
  · next hother =>
    refine ⟨h.full, ?_, h.blanks, fun hidle => Bool.noConfusion hidle, fun hall => ?_⟩
    · rw [← h.all]
      simp
    · exact absurd (hall g (List.mem_append_right _ (List.mem_singleton_self g))) hother

/-- Where there is room to spare a glyph is put behind everything. -/
theorem Holds.next (h : b.Holds read) (hroom : totalWidth (read ++ [g]) < width) :
    (b.next width g).Holds (read ++ [g]) := by
  rw [totalWidth_append, totalWidth_singleton] at hroom
  have hwidth := h.width_eq
  unfold LineBreaking.next
  dsimp only
  rw [if_neg (by omega), decide_eq_false (by omega), Bool.and_false, Bool.or_false]
  obtain ⟨hsettled, hword⟩ := h.settleFor g
  have hwidth' := hsettled.width_eq
  rw [if_neg (by omega)]
  exact hsettled.push hword

theorem holds_foldl (width : Nat) (more : List Glyph) :
    ∀ {b : LineBreaking} {read : List Glyph}, b.Holds read →
      totalWidth (read ++ more) < width → (more.foldl (next width) b).Holds (read ++ more) := by
  induction more with
  | nil =>
    intro b read h hroom
    rw [List.append_nil]
    exact h
  | cons g rest ih =>
    intro b read h hroom
    rw [List.append_cons] at hroom ⊢
    -- where there is room for everything there is room for each stretch from the front
    have hroom' : totalWidth (read ++ [g]) < width := by
      rw [totalWidth_append] at hroom
      omega
    exact ih (h.next hroom') hroom

/-- At the end all that was read is one row. Where it is blank an empty row stands before it. -/
theorem Holds.finish (h : b.Holds read) :
    b.finish = if read ≠ [] ∧ ∀ g ∈ read, g.isBlank = true then [[], read] else [read] := by
  have hlast : b.settle.row = read := h.all
  unfold LineBreaking.finish
  dsimp only
  rw [hlast, h.full]
  by_cases hempty : read = []
  · subst hempty
    obtain ⟨hrow, hword, -⟩ := h.blank fun g hg => absurd hg List.not_mem_nil
    have hblanks : b.blanks = [] := by
      have hall := h.all
      rw [hrow, hword] at hall
      simpa using hall
    rw [hrow, hword, hblanks]
    simp
  · by_cases hblank : ∀ g ∈ read, g.isBlank = true
    · obtain ⟨hrow, hword, -⟩ := h.blank hblank
      have hblanks : b.blanks = read := by
        have hall := h.all
        rw [hrow, hword] at hall
        simpa using hall
      rw [hrow, hword, hblanks]
      simpa [hempty] using hblank
    · -- something is not blank, so it is in the row or in the word
      have hfilled : ¬ (b.row = [] ∧ b.word = []) := fun ⟨hrow, hword⟩ => hblank fun g hg => by
        have hall := h.all
        rw [hrow, hword, List.nil_append, List.append_nil] at hall
        exact h.blanks g (hall ▸ hg)
      have hnone : (b.row.isEmpty && b.word.isEmpty && !b.blanks.isEmpty) = false := by
        rw [Bool.and_eq_false_iff]
        left
        simpa using hfilled
      have hother : ¬ (read ≠ [] ∧ ∀ g ∈ read, g.isBlank = true) := fun hboth => hblank hboth.2
      rw [hnone, if_neg hother]
      simp [hempty]

end LineBreaking

open Glyph (totalWidth)

/-- A line with room to spare is one row, and two if it is blank. -/
theorem breakLine_of_lt {width : Nat} {gs : List Glyph} (hroom : totalWidth gs < width) :
    breakLine width gs = if gs ≠ [] ∧ ∀ g ∈ gs, g.isBlank = true then [[], gs] else [gs] :=
  (LineBreaking.holds_foldl width gs LineBreaking.holds_start hroom).finish

namespace FrameLine

/-! ## Lines of text -/

theorem flatten_partsBetweenLineEnds_sublist (cs : List Char) :
    (partsBetweenLineEnds cs).flatten.Sublist cs := by
  fun_induction partsBetweenLineEnds cs with
  | case1 => exact List.Sublist.refl _
  | case2 rest ih => exact ih.cons _
  | case3 rest ih => exact (ih.cons _).cons _
  | case4 c rest hne hne' hnil ih => exact (List.nil_sublist rest).cons_cons c
  | case5 c rest hne hne' part parts heq ih =>
    rw [heq] at ih
    exact ih.cons_cons c

theorem flatten_flatMap_clusters (parts : List (List Char)) :
    (parts.flatMap clusters).flatten = parts.flatten := by
  induction parts with
  | nil => rfl
  | cons part rest ih =>
    rw [List.flatMap_cons, List.flatten_append, flatten_clusters, ih, List.flatten_cons]

/-- The glyphs of a line hold characters of its text, in their order. -/
theorem glyphs_eq (line : FrameLine) :
    ∃ parts : List (List Char), line.glyphs = parts.map .ofCluster ∧
      parts.flatten.Sublist line.text.toList := by
  refine ⟨_, rfl, List.filter_sublist.flatten.trans ?_⟩
  rw [flatten_flatMap_clusters]
  split
  · exact flatten_partsBetweenLineEnds_sublist _
  · simp

/-- A line of narrow characters has at most as many cells as it has characters. -/
theorem totalWidth_glyphs_le {line : FrameLine} (h : IsNarrow line.text.toList) :
    totalWidth line.glyphs ≤ line.text.toList.length := by
  obtain ⟨parts, hglyphs, hsub⟩ := line.glyphs_eq
  rw [hglyphs]
  calc totalWidth (parts.map .ofCluster)
      ≤ parts.flatten.length := Glyph.totalWidth_map_ofCluster_le parts (h.of_sublist hsub)
    _ ≤ line.text.toList.length := hsub.length_le

/-- Whether a line holds blanks and nothing else. -/
def IsBlankLine (line : FrameLine) : Prop :=
  line.glyphs ≠ [] ∧ ∀ g ∈ line.glyphs, g.isBlank = true

instance (line : FrameLine) : Decidable line.IsBlankLine :=
  inferInstanceAs (Decidable (line.glyphs ≠ [] ∧ ∀ g ∈ line.glyphs, g.isBlank = true))

/-- All of a line in one row. -/
def wholeRow (line : FrameLine) : Row := line.glyphs.flatMap (Glyph.toCells line.colour)

/-- A line with room to spare takes one row, and two if it is blank. -/
theorem rows_of_lt {width : Nat} {line : FrameLine} (hroom : totalWidth line.glyphs < width) :
    line.rows width = if line.IsBlankLine then [[], line.wholeRow] else [line.wholeRow] := by
  unfold rows
  rw [breakLine_of_lt hroom, apply_ite (List.map _)]
  rfl

/-- Lines with room to spare take as many rows as there are lines, and one more for each blank one. -/
theorem sum_length_rows {width : Nat} {lines : List FrameLine}
    (hroom : ∀ line ∈ lines, totalWidth line.glyphs < width) :
    (lines.map fun line => (line.rows width).length).sum
      = lines.length + lines.countP (fun line => decide line.IsBlankLine) := by
  induction lines with
  | nil => rfl
  | cons line rest ih =>
    obtain ⟨hline, hrest⟩ := List.forall_mem_cons.mp hroom
    rw [List.map_cons, List.sum_cons, ih hrest, rows_of_lt hline, List.length_cons, List.countP_cons]
    split
    · next hblank =>
      rw [decide_eq_true hblank]
      simp only [List.length_cons, List.length_nil, if_true]
      omega
    · next hother =>
      rw [decide_eq_false hother]
      simp only [List.length_cons, List.length_nil, Bool.false_eq_true, if_false]
      omega

end FrameLine

end Colloquy
