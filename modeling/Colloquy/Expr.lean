/-!
# Expressions

Scripts are made of nested lists over three kinds of atoms. An expression is data until the
evaluator runs it: the grammar of dialogues is read off the same trees that hold the code.
-/

namespace Colloquy

/-- A parenthesised expression. -/
inductive Expr
  | number (value : Float)
  | text (value : String)
  | symbol (name : String)
  | list (items : List Expr)
deriving Inhabited

namespace Expr

/-- What an expression is called in messages. -/
def kindName : Expr → String
  | number _ => "number"
  | text _ => "string"
  | symbol _ => "symbol"
  | list _ => "list"

/-- The name of a symbol. -/
def symbol? : Expr → Option String
  | symbol name => some name
  | _ => none

/-- The content of a string. -/
def text? : Expr → Option String
  | text value => some value
  | _ => none

/-- The items of a list. -/
def list? : Expr → Option (List Expr)
  | list items => some items
  | _ => none

/-- The symbol that a list starts with. -/
def head? : Expr → Option String
  | list (first :: _) => first.symbol?
  | _ => none

mutual

/-- Whether two expressions read the same, numbers compared as numbers: what is not a number
differs from itself, and the two zeros are alike. -/
def same : Expr → Expr → Bool
  | number a, number b => a == b
  | text a, text b => a == b
  | symbol a, symbol b => a == b
  | list a, list b => sameAll a b
  | _, _ => false

/-- `same`, item by item. -/
def sameAll : List Expr → List Expr → Bool
  | [], [] => true
  | a :: as, b :: bs => same a b && sameAll as bs
  | _, _ => false

end

mutual

/-- How deep lists stand inside each other: no list counts zero, an empty one counts one. -/
def depth : Expr → Nat
  | list items => 1 + depthAll items
  | _ => 0

/-- The greatest depth of some expressions. -/
def depthAll : List Expr → Nat
  | [] => 0
  | e :: rest => max (depth e) (depthAll rest)

end

end Expr

end Colloquy
