import Colloquy.LinePlayer
import Colloquy.Proofs.Text
import Mathlib.Data.List.TakeWhile
import Mathlib.Tactic.Conv

/-!
# Lines of input

The line player takes its input apart into lines before it plays. `readLine` takes one line off an
input instead, as a reader does, and `linesOf_eq` says that all the lines are those read one after
another. A line that ends can be cut out of an input: `linesOf_append` says that an input goes on with
its own lines after one that ends in a line end. What is answered is a line without the blanks around
it, to which the marks at its end make no difference (`trim_withoutLineEnd`).
-/

namespace Colloquy.LinePlayer

/-- The first line of an input, and the input after it. -/
def readLine (cs : List Char) : Option (String × List Char) :=
  if cs = [] then none
  else some (String.ofList (cs.takeWhile (· ≠ '\n')), (cs.dropWhile (· ≠ '\n')).drop 1)

@[simp] theorem linesOf_nil : linesOf [] = [] := by
  unfold linesOf
  rfl

theorem linesOf_eq (cs : List Char) : linesOf cs = match readLine cs with
    | none => []
    | some (line, rest) => line :: linesOf rest := by
  unfold readLine
  by_cases hempty : cs = []
  · rw [if_pos hempty, hempty, linesOf_nil]
  rw [if_neg hempty]
  conv_lhs => unfold linesOf
  split
  · next hend =>
    -- no line end is left, so the line is all of the input
    have hline : cs.takeWhile (· ≠ '\n') = cs := by
      have hsplit := List.takeWhile_append_dropWhile (p := fun c => decide (c ≠ '\n')) (l := cs)
      rwa [hend, List.append_nil] at hsplit
    rw [hline, if_neg hempty, hend]
    simp
  · next rest hend =>
    have hrest : (cs.dropWhile (· ≠ '\n')).drop 1 = rest := by rw [hend]; rfl
    dsimp only
    rw [hrest]

section Cut

variable {line : List Char} (hline : '\n' ∉ line)

include hline

theorem readLine_ended (rest : List Char) :
    readLine (line ++ '\n' :: rest) = some (String.ofList line, rest) := by
  have hchars : ∀ c ∈ line, decide (c ≠ '\n') = true := fun c hc =>
    decide_eq_true fun heq => hline (heq ▸ hc)
  unfold readLine
  rw [if_neg (by simp), takeWhile_stretch hchars (by simp), dropWhile_stretch hchars (by simp)]
  rfl

theorem linesOf_ended (rest : List Char) :
    linesOf (line ++ '\n' :: rest) = String.ofList line :: linesOf rest := by
  rw [linesOf_eq, readLine_ended hline]

theorem linesOf_unended (hsome : line ≠ []) : linesOf line = [String.ofList line] := by
  have hchars : ∀ c ∈ line, decide (c ≠ '\n') = true := fun c hc =>
    decide_eq_true fun heq => hline (heq ▸ hc)
  rw [linesOf_eq]
  unfold readLine
  rw [if_neg hsome, List.takeWhile_eq_self_iff.mpr hchars, List.dropWhile_eq_nil_iff.mpr hchars]
  simp

end Cut

/-- After a line end, an input goes on with lines of its own. -/
theorem linesOf_append_ended (before after : List Char) :
    linesOf (before ++ '\n' :: after) = linesOf (before ++ ['\n']) ++ linesOf after := by
  by_cases hend : '\n' ∈ before
  · obtain ⟨line, rest, rfl, hline⟩ := List.eq_append_cons_of_mem hend
    have hrest := linesOf_append_ended rest after
    rw [List.append_assoc, List.append_assoc, List.cons_append, List.cons_append,
      linesOf_ended hline, linesOf_ended hline, hrest, List.cons_append]
  · rw [linesOf_ended hend, linesOf_ended hend, linesOf_nil]
    rfl
termination_by before.length
decreasing_by simp +arith [*]

/-! ## Line ends are blanks -/

theorem trimEndChars_append_blank (cs : List Char) {blanks : List Char}
    (hblanks : ∀ c ∈ blanks, isBlank c = true) :
    trimEndChars (cs ++ blanks) = trimEndChars cs := by
  unfold trimEndChars
  rw [List.reverse_append, List.dropWhile_append_of_pos fun c hc => hblanks c (List.mem_reverse.mp hc)]

theorem trimChars_append_blank (cs : List Char) {blanks : List Char}
    (hblanks : ∀ c ∈ blanks, isBlank c = true) : trimChars (cs ++ blanks) = trimChars cs := by
  unfold trimChars
  rw [List.dropWhile_append]
  split
  · next hnone =>
    rw [List.isEmpty_iff.mp hnone, List.dropWhile_eq_nil_iff.mpr hblanks]
  · exact trimEndChars_append_blank _ hblanks

theorem trim_withoutLineEnd (line : String) : trim (withoutLineEnd line) = trim line := by
  let isEnd : Char → Bool := fun c => c = '\r' || c = '\n'
  have hsplit : line.toList = (line.toList.reverse.dropWhile isEnd).reverse
      ++ (line.toList.reverse.takeWhile isEnd).reverse := by
    rw [← List.reverse_append, List.takeWhile_append_dropWhile, List.reverse_reverse]
  have hblanks : ∀ c ∈ (line.toList.reverse.takeWhile isEnd).reverse, isBlank c = true := by
    intro c hc
    have hend : isEnd c = true := List.mem_takeWhile_imp (List.mem_reverse.mp hc)
    rcases Bool.or_eq_true_iff.mp hend with hc | hc <;>
      rw [of_decide_eq_true hc] <;> decide
  unfold trim withoutLineEnd
  rw [String.toList_ofList]
  conv_rhs => rw [hsplit, trimChars_append_blank _ hblanks]

end Colloquy.LinePlayer
