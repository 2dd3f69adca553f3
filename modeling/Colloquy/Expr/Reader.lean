import Colloquy.Token

/-!
# Reading expressions

Reading goes token by token with the lists still open on a stack, so that a parenthesis without a
partner is blamed on the right place: the first closing one outside any list, or else the
innermost list open at the end. An atom is a number if it is a decimal numeral and a symbol
otherwise.
-/

namespace Colloquy

/-- The expression that an atom stands for. -/
def classifyAtom (chars : List Char) : Expr :=
  match Decimal.ofChars? chars with
  | some numeral => .number numeral.toFloat
  | none => .symbol (String.ofList chars)

/-- A list that is still open: where it starts and its items so far, the last one first. -/
structure OpenList where
  span : Span
  items : List Expr

/-- Adds an expression to the innermost open list, or to the finished forms. -/
def place (e : Expr) : List OpenList → List Expr → List OpenList × List Expr
  | [], done => ([], e :: done)
  | inner :: outer, done => ({ inner with items := e :: inner.items } :: outer, done)

/-- Builds the forms of a token sequence; `done` holds the finished ones, the last one first. -/
def assemble : List OpenList → List Expr → List Token → Except ReadingFault (List Expr)
  | [], done, [] => .ok done.reverse
  | inner :: _, _, [] => .error (.unclosedList inner.span)
  | stack, done, token :: rest =>
    match token.lexeme with
    | .openList => assemble (⟨token.span, []⟩ :: stack) done rest
    | .closeList =>
      match stack with
      | [] => .error (.strayClose token.span)
      | inner :: outer =>
        let (stack, done) := place (.list inner.items.reverse) outer done
        assemble stack done rest
    | .text value =>
      let (stack, done) := place (.text value) stack done
      assemble stack done rest
    | .atom chars =>
      let (stack, done) := place (classifyAtom chars) stack done
      assemble stack done rest

/-- The expressions of a script text. -/
def readSource (source : String) : Except ReadingFault (List Expr) := do
  assemble [] [] (← tokenize source)

/-- The expression of a text that holds just one. -/
def readOne (source : String) : Except ReadingFault Expr := do
  match ← readSource source with
  | [e] => .ok e
  | es => .error (.notSingle es.length)

end Colloquy
