import Colloquy.Text.Width

/-!
# Fitting text to a width

To wrap a text loses nothing: its rows are the text again, none is too wide, and all but the last are
full (`isWrapped_wrap`). To truncate it leaves what fits alone and else ends just at the width, with an
ellipsis (`truncate_eq_self_iff`, `toList_truncate`).
-/

namespace Colloquy

variable {width : Nat} {cs : List Char}

/-! ## Rows -/

theorem rows_ne_nil (width : Nat) (cs : List Char) : rows width cs ≠ [] := by
  unfold rows
  split <;> exact List.cons_ne_nil _ _

theorem flatten_rows (width : Nat) (cs : List Char) : (rows width cs).flatten = cs := by
  fun_induction rows width cs with
  | case1 cs hfits => exact List.append_nil cs
  | case2 cs hwide ih =>
    rw [List.flatten_cons, ih]
    exact List.take_append_drop width cs

theorem length_le_of_mem_rows (hwidth : 1 ≤ width) :
    ∀ row ∈ rows width cs, row.length ≤ width := by
  fun_induction rows width cs with
  | case1 cs hfits => exact List.forall_mem_singleton.mpr (hfits.resolve_left (by omega))
  | case2 cs hwide ih =>
    exact List.forall_mem_cons.mpr ⟨List.length_take_le width cs, ih⟩

/-- Rows are full as long as there are more of them. -/
theorem length_eq_of_mem_dropLast_rows :
    ∀ row ∈ (rows width cs).dropLast, row.length = width := by
  fun_induction rows width cs with
  | case1 cs hfits => simp
  | case2 cs hwide ih =>
    rw [List.dropLast_cons_of_ne_nil (rows_ne_nil _ _)]
    refine List.forall_mem_cons.mpr ⟨?_, ih⟩
    rw [List.length_take]
    omega

/-! ## Wrapping -/

/-- Some rows are a text broken at a width: together they are the text, and each is as wide as it can
be. -/
structure IsWrapped (width : Nat) (text : String) (rows : List String) : Prop where
  joined : rows.flatMap String.toList = text.toList
  fits : ∀ row ∈ rows, row.toList.length ≤ width
  full : ∀ row ∈ rows.dropLast, row.toList.length = width

theorem wrap_eq (hwidth : 1 ≤ width) (text : String) :
    wrap width text = (rows width text.toList).map String.ofList := by
  unfold wrap wrapChars
  rw [if_neg (by omega)]

theorem isWrapped_wrap (hwidth : 1 ≤ width) (text : String) :
    IsWrapped width text (wrap width text) := by
  rw [wrap_eq hwidth]
  refine ⟨?_, ?_, ?_⟩
  · rw [List.flatMap_map]
    simp only [String.toList_ofList]
    rw [List.flatMap_id', flatten_rows]
  · intro row hrow
    obtain ⟨chars, hchars, rfl⟩ := List.mem_map.mp hrow
    rw [String.toList_ofList]
    exact length_le_of_mem_rows hwidth chars hchars
  · intro row hrow
    rw [← List.map_dropLast] at hrow
    obtain ⟨chars, hchars, rfl⟩ := List.mem_map.mp hrow
    rw [String.toList_ofList]
    exact length_eq_of_mem_dropLast_rows chars hchars

/-! ## Truncating -/

theorem toList_truncate (hwidth : 1 ≤ width) {text : String} (hwide : width < text.toList.length) :
    (truncate width text).toList = text.toList.take (width - 1) ++ ['…'] := by
  unfold truncate truncateChars
  rw [if_neg (by omega), if_neg (by omega), String.toList_ofList]

theorem length_truncate (hwidth : 1 ≤ width) {text : String} (hwide : width < text.toList.length) :
    (truncate width text).toList.length = width := by
  rw [toList_truncate hwidth hwide, List.length_append, List.length_take, List.length_singleton]
  omega

theorem truncate_of_le {text : String} (hfits : text.toList.length ≤ width) :
    truncate width text = text := by
  unfold truncate truncateChars
  split
  · next hzero =>
    have hnil : text.toList = [] := List.length_eq_zero_iff.mp (by omega)
    rw [← hnil, String.ofList_toList]
  · exact String.ofList_toList

theorem length_truncate_le (width : Nat) (text : String) :
    (truncate width text).toList.length ≤ width := by
  by_cases hfits : text.toList.length ≤ width
  · rw [truncate_of_le hfits]
    exact hfits
  · by_cases hwidth : 1 ≤ width
    · exact Nat.le_of_eq (length_truncate hwidth (by omega))
    · unfold truncate truncateChars
      rw [if_pos (by omega)]
      exact Nat.zero_le _

/-- Just the texts that fit are left alone. -/
theorem truncate_eq_self_iff {text : String} :
    truncate width text = text ↔ text.toList.length ≤ width := by
  refine ⟨fun hself => ?_, truncate_of_le⟩
  rw [← hself]
  exact length_truncate_le width text

end Colloquy
