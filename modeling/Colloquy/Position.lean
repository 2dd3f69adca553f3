/-!
# Places in a text

Lines and columns count from one; only a line feed ends a line, and a column is one character
(one Unicode scalar value) wide.
-/

namespace Colloquy

/-- A place between two characters of a text. -/
structure Position where
  line : Nat
  column : Nat
deriving DecidableEq, Repr, Inhabited

namespace Position

/-- The place before the first character. -/
def start : Position := ⟨1, 1⟩

/-- The place after one more character. -/
def next (p : Position) (c : Char) : Position :=
  if c = '\n' then ⟨p.line + 1, 1⟩ else ⟨p.line, p.column + 1⟩

/-- The place after a stretch of characters. -/
def after (p : Position) (cs : List Char) : Position := cs.foldl next p

theorem after_append (p : Position) (a b : List Char) :
    p.after (a ++ b) = (p.after a).after b := by
  simp [after, List.foldl_append]

/-- The text `line:column` of a place. -/
def text (p : Position) : String := s!"{p.line}:{p.column}"

end Position

/-- A stretch of a text, from one place to a later one. -/
structure Span where
  start : Position
  stop : Position
deriving DecidableEq, Repr, Inhabited

end Colloquy
