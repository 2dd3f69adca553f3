import Colloquy.Value

/-!
# Applying builtins

All builtins work on numbers. Sums and products fold from the left, starting from negative zero
and from one; differences and quotients fold the later arguments into the first, and a lone
argument of the difference is negated. Division is that of doubles, with infinities for division
by zero. `cmp` is another name for `>=`.

`Builtin.apply` is defined for every list of arguments; the evaluator calls it with a number of
them that the signature allows.
-/

namespace Colloquy.Builtin

variable {κ : Type}

/-- The arguments as numbers, the first other argument being the fault. -/
def numbers (b : Builtin) (args : List (Value κ)) : Except EvaluationFault (List Float) :=
  args.mapM fun v => v.expectNumber s!"\"{b.name}\""

/-- A function of the numbers that a builtin is applied to. -/
def fold (b : Builtin) (f : List Float → Float) (args : List (Value κ)) :
    Except EvaluationFault (Value κ) :=
  (b.numbers args).map fun xs => .number (f xs)

/-- A test of two numbers. -/
def compare (b : Builtin) (test : Float → Float → Bool) (args : List (Value κ)) :
    Except EvaluationFault (Value κ) := do
  match ← b.numbers args with
  | [x, y] => .ok (.ofBool (test x y))
  | xs => .error (.wrongCount b.name "2 arguments" xs.length)

/-- A test of any numbers. -/
def judge (b : Builtin) (test : List Float → Bool) (args : List (Value κ)) :
    Except EvaluationFault (Value κ) :=
  (b.numbers args).map fun xs => .ofBool (test xs)

/-- The first number less the others; one number alone is negated. -/
def difference : List Float → Float
  | [] => 0
  | [x] => -x
  | x :: xs => xs.foldl (· - ·) x

/-- The first number divided by the others. -/
def quotient : List Float → Float
  | [] => 0
  | x :: xs => xs.foldl (· / ·) x

/-- The value of a builtin. -/
def apply (b : Builtin) (args : List (Value κ)) : Except EvaluationFault (Value κ) :=
  match b with
  | add => b.fold (fun xs => xs.foldl (· + ·) (-0.0)) args
  | subtract => b.fold difference args
  | multiply => b.fold (fun xs => xs.foldl (· * ·) 1) args
  | divide => b.fold quotient args
  | reaches => b.compare (fun x y => x ≥ y) args
  | less => b.compare (fun x y => x < y) args
  | greater => b.compare (fun x y => x > y) args
  | lessEqual => b.compare (fun x y => x ≤ y) args
  | greaterEqual => b.compare (fun x y => x ≥ y) args
  | equal => b.compare (fun x y => x == y) args
  | not => b.judge (fun xs => !xs.any fun x => x > 0) args
  | and => b.judge (fun xs => xs.all fun x => x > 0) args
  | or => b.judge (fun xs => xs.any fun x => x > 0) args

end Colloquy.Builtin
