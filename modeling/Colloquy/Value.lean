import Colloquy.Fault

/-!
# Values

Code computes with numbers, texts, symbols, functions and handles, and `none` is what a function
gives that has nothing to give. Functions are named, not carried: a function value is a builtin or
one of the functions that the host provides, whose names form the type `κ`. A handle is a number
that the host alone can turn into an object. Only a number above zero counts as true.
-/

namespace Colloquy

/-- How many arguments a function takes. -/
inductive Arity
  | exactly (count : Nat)
  | atLeast (count : Nat)
deriving DecidableEq, Repr

namespace Arity

/-- Whether a function takes this many arguments. -/
def accepts : Arity → Nat → Bool
  | exactly n, count => count = n
  | atLeast n, count => n ≤ count

/-- The arity in words. -/
def text : Arity → String
  | exactly 1 => "exactly 1 argument"
  | exactly n => s!"exactly {n} arguments"
  | atLeast 0 => "any number of arguments"
  | atLeast 1 => "at least 1 argument"
  | atLeast n => s!"at least {n} arguments"

end Arity

/-- The name and the arity of a function. -/
structure Signature where
  name : String
  arity : Arity
deriving DecidableEq, Repr

/-- The functions of the language itself. -/
inductive Builtin
  | add
  | subtract
  | multiply
  | divide
  | reaches
  | less
  | greater
  | lessEqual
  | greaterEqual
  | equal
  | not
  | and
  | or
deriving DecidableEq, Repr

namespace Builtin

/-- Name and arity of each builtin. -/
def signature : Builtin → Signature
  | add => ⟨"+", .atLeast 0⟩
  | subtract => ⟨"-", .atLeast 1⟩
  | multiply => ⟨"*", .atLeast 0⟩
  | divide => ⟨"/", .atLeast 2⟩
  | reaches => ⟨"cmp", .exactly 2⟩
  | less => ⟨"<", .exactly 2⟩
  | greater => ⟨">", .exactly 2⟩
  | lessEqual => ⟨"<=", .exactly 2⟩
  | greaterEqual => ⟨">=", .exactly 2⟩
  | equal => ⟨"=", .exactly 2⟩
  | not => ⟨"not", .exactly 1⟩
  | and => ⟨"and", .atLeast 1⟩
  | or => ⟨"or", .atLeast 1⟩

/-- The name that a builtin is bound to. -/
def name (b : Builtin) : String := b.signature.name

/-- Every builtin. -/
def all : List Builtin :=
  [add, subtract, multiply, divide, reaches, less, greater, lessEqual, greaterEqual, equal, not,
   and, or]

end Builtin

/-- A function: a builtin, or one of those that the host provides. -/
inductive Native (κ : Type)
  | builtin (b : Builtin)
  | own (function : κ)
deriving DecidableEq

/-- What code computes with. -/
inductive Value (κ : Type)
  | number (value : Float)
  | text (value : String)
  | symbol (name : String)
  | function (f : Native κ)
  | handle (id : Nat)
  | none
deriving DecidableEq

namespace Value

variable {κ : Type}

/-- What a value is called in messages. -/
def kindName : Value κ → String
  | number _ => "number"
  | text _ => "string"
  | symbol _ => "symbol"
  | function _ => "function"
  | handle _ => "handle"
  | none => "none"

/-- A truth value as a number. -/
def ofBool (b : Bool) : Value κ := number (if b then 1 else 0)

/-- Whether a value counts as true. -/
def isTruthy : Value κ → Bool
  | number x => x > 0
  | _ => false

/-- The number that a value is. -/
def number? : Value κ → Option Float
  | number x => some x
  | _ => Option.none

/-- The text that a value is. -/
def text? : Value κ → Option String
  | text s => some s
  | _ => Option.none

/-- The handle that a value is. -/
def handle? : Value κ → Option Nat
  | handle id => some id
  | _ => Option.none

/-- The number that a value is, or a fault that names where it was needed. -/
def expectNumber (context : String) : Value κ → Except EvaluationFault Float
  | number x => .ok x
  | v => .error (.typeMismatch context "number" v.kindName)

/-- The handle that a value is, or a fault that names where it was needed. -/
def expectHandle (context : String) : Value κ → Except EvaluationFault Nat
  | handle id => .ok id
  | v => .error (.typeMismatch context "handle" v.kindName)

/-- The shown form of a value, given the names of the host's functions. -/
def shown (nameOf : κ → String) : Value κ → String
  | number x => Number.text x
  | text s => s
  | symbol name => name
  | function (.builtin b) => s!"<native {b.name}>"
  | function (.own f) => s!"<native {nameOf f}>"
  | handle id => s!"<handle {id}>"
  | none => "none"

/-- Whether two values are alike, numbers compared as numbers. -/
def same [DecidableEq κ] : Value κ → Value κ → Bool
  | number x, number y => x == y
  | v, w => v = w

end Value

end Colloquy
