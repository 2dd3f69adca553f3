import Colloquy.Expr
import Colloquy.Json.Printer
import Colloquy.Json.Record

/-!
# Expressions in documents

An expression is a variant `number`, `text`, `symbol` or `list` with its content as `value`.
-/

namespace Colloquy.Expr

/-- A variant with its content. -/
def variant (kind : String) (content : Json) : Json :=
  .members [("kind", .text kind), ("value", content)]

mutual

/-- The document of an expression. -/
def toJson : Expr → Json
  | number value => variant "number" (.ofFloat value)
  | text value => variant "text" (.text value)
  | symbol name => variant "symbol" (.text name)
  | list items => variant "list" (.array (toJsonAll items))

/-- The documents of expressions. -/
def toJsonAll : List Expr → List Json
  | [] => []
  | e :: rest => toJson e :: toJsonAll rest

end

/-- The kinds of expressions, in their order. -/
def kinds : List String := ["number", "text", "symbol", "list"]

/-- The expression that a source holds, opening at most `depth` containers inside each other. -/
def ofSource? (source : Json.Source) (depth : Nat) (document : Json) : Option Expr :=
  match depth with
  | 0 => none
  | inside + 1 => do
    let (kind, source, content) ← Json.taggedContent? kinds source (inside + 1) document
    match kind with
    | "number" => content.toFloat?.map number
    | "text" => content.toText?.map text
    | "symbol" => content.toText?.map symbol
    | "list" =>
      -- The array of the items is one more container.
      match inside, content with
      | deeper + 1, .array items => (items.mapM (ofSource? source deeper)).map list
      | _, _ => none
    | _ => none

/-- The expression of a document that opens at most `depth` containers inside each other. -/
def ofJson? (depth : Nat) (document : Json) : Option Expr :=
  ofSource? .document depth document

end Colloquy.Expr
