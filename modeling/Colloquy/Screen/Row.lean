import Colloquy.Text.Blank
import Colloquy.Text.CellWidth
import Colloquy.Text.Cluster

/-!
# Rows of a terminal

A terminal shows a text in cells, one cluster after the other. A wide cluster leaves the cells
behind its first one blank, and a cluster of no width is not shown.

A line that does not fit is broken at blanks, and inside a word that is too wide for a row. A line
is also broken before its blanks if it has nothing else.
-/

namespace Colloquy

/-- The colours in use. -/
inductive Colour
  | plain
  | gray
  | green
  | yellow
  | magenta
deriving DecidableEq, Repr

/-- A cell of the terminal. -/
structure Cell where
  colour : Colour
  text : String
deriving DecidableEq

/-- A row of cells. The cells behind the last one are blank. -/
abbrev Row := List Cell

/-! ## Glyphs -/

/-- A cluster with the number of its cells. -/
structure Glyph where
  cluster : List Char
  width : Nat

namespace Glyph

/-- The glyph of a cluster. -/
def ofCluster (cluster : List Char) : Glyph := ⟨cluster, cells cluster⟩

/-- Whether a line may be broken at a glyph: the blanks but the one that forbids it, and the space
of no width. -/
def isBlank (g : Glyph) : Bool :=
  g.cluster = ['\u200b'] || (g.cluster.all Colloquy.isBlank && g.cluster ≠ ['\u00a0'])

/-- The number of cells of several glyphs. -/
def totalWidth (gs : List Glyph) : Nat := gs.foldr (fun g n => g.width + n) 0

/-- The cells of a glyph. -/
def toCells (colour : Colour) (g : Glyph) : List Cell :=
  match g.width with
  | 0 => []
  | n + 1 => ⟨colour, String.ofList g.cluster⟩ :: List.replicate n ⟨.plain, " "⟩

/-- A glyph takes as many cells as it is wide. -/
theorem length_toCells (colour : Colour) (g : Glyph) : (g.toCells colour).length = g.width := by
  unfold toCells
  split <;> simp_all

end Glyph

/-! ## Breaking lines -/

/-- A line on its way into rows of some width. -/
structure LineBreaking where
  /-- The rows that are full. -/
  full : List (List Glyph)
  /-- The row that is being filled. -/
  row : List Glyph
  /-- The blanks behind it. -/
  blanks : List Glyph
  /-- The word behind these. -/
  word : List Glyph
  /-- Whether the last glyph belonged to a word. -/
  inWord : Bool

namespace LineBreaking

/-- Nothing is read yet. -/
def start : LineBreaking := ⟨[], [], [], [], false⟩

/-- Puts the blanks and the word into the row. -/
def settle (b : LineBreaking) : LineBreaking :=
  { b with row := b.row ++ b.blanks ++ b.word, blanks := [], word := [] }

/-- Puts a glyph behind everything. -/
def push (b : LineBreaking) (g : Glyph) : LineBreaking :=
  if g.isBlank then { b with blanks := b.blanks ++ [g], inWord := false }
  else { b with word := b.word ++ [g], inWord := true }

/-- The blanks that are left when all that fit into some room are dropped. -/
def dropFitting (room : Nat) : List Glyph → List Glyph
  | [] => []
  | g :: rest => if g.width ≤ room then dropFitting (room - g.width) rest else g :: rest

/-- Takes the next glyph. One that is wider than a row is left out, and a blank at which the row is
full vanishes. -/
def next (width : Nat) (b : LineBreaking) (g : Glyph) : LineBreaking :=
  let pending := Glyph.totalWidth b.blanks + Glyph.totalWidth b.word
  if width < g.width then b
  else
    let b :=
      if (b.inWord && g.isBlank) || (b.row.isEmpty && decide (width < pending + g.width)) then
        b.settle
      else b
    let filled := Glyph.totalWidth b.row
    let pending := Glyph.totalWidth b.blanks + Glyph.totalWidth b.word
    if width ≤ filled ∨ (0 < g.width ∧ width ≤ filled + pending) then
      let blanks := dropFitting (width - filled) b.blanks
      let b := { b with full := b.full ++ [b.row], row := [], blanks }
      if g.isBlank && blanks.isEmpty then b else b.push g
    else b.push g

/-- The rows of the line when all of it is read. -/
def finish (b : LineBreaking) : List (List Glyph) :=
  let full :=
    if b.row.isEmpty && b.word.isEmpty && !b.blanks.isEmpty then b.full ++ [[]] else b.full
  let last := b.settle.row
  if !last.isEmpty then full ++ [last]
  else if full.isEmpty then [[]]
  else full

end LineBreaking

/-- The rows of a line of glyphs, for a terminal of some width. -/
def breakLine (width : Nat) (line : List Glyph) : List (List Glyph) :=
  (line.foldl (LineBreaking.next width) .start).finish

/-! ## Lines of text -/

/-- The parts of a text between its line ends. -/
def partsBetweenLineEnds : List Char → List (List Char)
  | [] => [[]]
  | '\n' :: rest => [] :: partsBetweenLineEnds rest
  | '\r' :: '\n' :: rest => [] :: partsBetweenLineEnds rest
  | c :: rest =>
    match partsBetweenLineEnds rest with
    | [] => [[c]]
    | part :: parts => (c :: part) :: parts

/-- A line in one colour. -/
structure FrameLine where
  colour : Colour
  text : String
  /-- Whether the text is put together from the parts between its line ends. Else only a line feed
  that stands alone is left out. -/
  joinsParts : Bool
deriving DecidableEq

namespace FrameLine

/-- A line of plain text. -/
def ofText (text : String) : FrameLine := ⟨.plain, text, true⟩

/-- A line in some colour. -/
def styled (colour : Colour) (text : String) : FrameLine := ⟨colour, text, false⟩

/-- The glyphs of a line. -/
def glyphs (line : FrameLine) : List Glyph :=
  let parts := if line.joinsParts then partsBetweenLineEnds line.text.toList else [line.text.toList]
  ((parts.flatMap clusters).filter (· ≠ ['\n'])).map .ofCluster

/-- The rows that a line takes on a terminal of some width. -/
def rows (width : Nat) (line : FrameLine) : List Row :=
  (breakLine width line.glyphs).map fun row => row.flatMap (Glyph.toCells line.colour)

end FrameLine

end Colloquy
