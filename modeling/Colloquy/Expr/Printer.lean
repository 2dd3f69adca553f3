import Colloquy.Expr
import Colloquy.Number.Layout
import Colloquy.Text.Quoted

/-!
# Printing expressions

Numbers have their plain text, strings are quoted, symbols stand as they are, and a list is its
items with single spaces between them, in parentheses. The forms of a program stand on lines of
their own.
-/

namespace Colloquy.Expr

mutual

/-- The printed form of an expression. -/
def chars : Expr → List Char
  | number value => (Number.text value).toList
  | text value => '"' :: Quoted.encode value.toList ++ ['"']
  | symbol name => name.toList
  | list items => '(' :: itemsChars items ++ [')']

/-- Printed expressions with a space between each two. -/
def itemsChars : List Expr → List Char
  | [] => []
  | [item] => chars item
  | item :: rest => chars item ++ ' ' :: itemsChars rest

end

/-- The printed form as text. -/
def print (e : Expr) : String := String.ofList e.chars

/-- The printed forms of a program, one to a line. -/
def programChars : List Expr → List Char
  | [] => []
  | [form] => chars form
  | form :: rest => chars form ++ '\n' :: programChars rest

/-- The text of a program. -/
def printProgram (forms : List Expr) : String := String.ofList (programChars forms)

end Colloquy.Expr
