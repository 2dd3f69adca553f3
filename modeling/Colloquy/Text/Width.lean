/-!
# Fitting text to a width

Widths count characters. `truncate` cuts a text that is too wide and ends it with an ellipsis;
`wrap` breaks it into rows, all of them full but the last, and gives an empty text one empty row.
-/

namespace Colloquy

/-- The characters of a text, at most `width` of them, the last one an ellipsis if some are cut. -/
def truncateChars (width : Nat) (cs : List Char) : List Char :=
  if width = 0 then []
  else if cs.length ≤ width then cs
  else cs.take (width - 1) ++ ['…']

/-- The rows of a text. -/
def rows (width : Nat) (cs : List Char) : List (List Char) :=
  if _ : width = 0 ∨ cs.length ≤ width then [cs]
  else cs.take width :: rows width (cs.drop width)
termination_by cs.length
decreasing_by simp only [List.length_drop]; omega

/-- The rows of a text; at no width at all there is just an empty one. -/
def wrapChars (width : Nat) (cs : List Char) : List (List Char) :=
  if width = 0 then [[]] else rows width cs

/-- A text cut to a width. -/
def truncate (width : Nat) (text : String) : String :=
  String.ofList (truncateChars width text.toList)

/-- A text broken into rows. -/
def wrap (width : Nat) (text : String) : List String :=
  (wrapChars width text.toList).map String.ofList

end Colloquy
