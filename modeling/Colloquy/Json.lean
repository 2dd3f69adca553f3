/-!
# Documents

Save files, test cases and compiled dialogues are written as JSON. `Json` is a document as it is
written: a number is still its literal, and the members of an object stand in their order, names
repeated or not. A string is the text that its literal stands for, or nothing where the literal
escapes half of a surrogate pair; such a literal may stand in a part of a document that nobody
reads.
-/

namespace Colloquy

/-- A document as written. -/
inductive Json
  | null
  | bool (value : Bool)
  | number (literal : String)
  | string (value : Option String)
  | array (items : List Json)
  | object (members : List (Option String × Json))
deriving Inhabited

namespace Json

/-- A string with a text. -/
def text (value : String) : Json := string (some value)

/-- An object with the given members. -/
def members (list : List (String × Json)) : Json := object (list.map fun m => (some m.1, m.2))

/-- A string, or null. -/
def optional {α : Type} (encode : α → Json) : Option α → Json
  | some value => encode value
  | none => null

/-- The member of an object that has the given name. -/
def member? (name : String) : Json → Option Json
  | object list => list.lookup (some name)
  | _ => none

end Json

end Colloquy
