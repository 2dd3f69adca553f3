import Colloquy.Text.Range

/-!
# Blank characters

`isBlank` is the Unicode property White_Space. Script text is separated by it, and the
trimming of command-line values, player input and status lines takes it off the ends.
-/

namespace Colloquy

/-- The code points with the property White_Space, as closed ranges. -/
def blankRanges : List (Nat × Nat) :=
  [(0x09, 0x0D), (0x20, 0x20), (0x85, 0x85), (0xA0, 0xA0), (0x1680, 0x1680), (0x2000, 0x200A),
   (0x2028, 0x2029), (0x202F, 0x202F), (0x205F, 0x205F), (0x3000, 0x3000)]

/-- Whether a character is blank. -/
def isBlank (c : Char) : Bool := inRanges blankRanges c

/-- The characters that core counts as white space are blank. -/
theorem isBlank_of_isWhitespace {c : Char} (h : c.isWhitespace = true) : isBlank c = true := by
  simp only [Char.isWhitespace, Bool.or_eq_true, decide_eq_true_eq] at h
  rcases h with ((h | h) | h) | h <;> subst h <;> decide

/-- Without the blanks at the end. -/
def trimEndChars (cs : List Char) : List Char := (cs.reverse.dropWhile isBlank).reverse

/-- Without the blanks at both ends. -/
def trimChars (cs : List Char) : List Char := trimEndChars (cs.dropWhile isBlank)

/-- The text without the blanks at its end. -/
def trimEnd (text : String) : String := String.ofList (trimEndChars text.toList)

/-- The text without the blanks at its ends. -/
def trim (text : String) : String := String.ofList (trimChars text.toList)

end Colloquy
