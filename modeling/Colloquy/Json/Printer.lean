import Colloquy.Json
import Colloquy.Number.Layout

/-!
# Writing documents

Compact documents have no blanks at all. Indented ones give each item and member a line, two
blanks deeper than its container, except that an empty container stays on its line. In strings
the quote, the backslash and the control characters are escaped and nothing else is. A quantity
has a number literal if it is finite and is null otherwise.
-/

namespace Colloquy.Json

/-- The lower-case hexadecimal digit of a number below sixteen. -/
def hexDigit (n : Nat) : Char := Nat.digitChar n

/-- A character as it stands in a string literal. -/
def escape (c : Char) : List Char :=
  if c = '"' then ['\\', '"']
  else if c = '\\' then ['\\', '\\']
  else if c = '\n' then ['\\', 'n']
  else if c = '\r' then ['\\', 'r']
  else if c = '\t' then ['\\', 't']
  else if c = '\x08' then ['\\', 'b']
  else if c = '\x0c' then ['\\', 'f']
  else if c.toNat < 0x20 then
    ['\\', 'u', '0', '0', hexDigit (c.toNat / 16), hexDigit (c.toNat % 16)]
  else [c]

/-- The literal of a text. -/
def quote (cs : List Char) : List Char := '"' :: cs.flatMap escape ++ ['"']

/-- The literal of a string; one without a text is written as null. -/
def stringChars : Option String → List Char
  | some value => quote value.toList
  | none => "null".toList

mutual

/-- A compact document. -/
def chars : Json → List Char
  | null => "null".toList
  | bool true => "true".toList
  | bool false => "false".toList
  | number literal => literal.toList
  | string value => stringChars value
  | array items => '[' :: itemsChars items ++ [']']
  | object members => '\x7b' :: membersChars members ++ ['\x7d']

/-- Items with commas between them. -/
def itemsChars : List Json → List Char
  | [] => []
  | [item] => chars item
  | item :: rest => chars item ++ ',' :: itemsChars rest

/-- Members with commas between them. -/
def membersChars : List (Option String × Json) → List Char
  | [] => []
  | [(name, value)] => stringChars name ++ ':' :: chars value
  | (name, value) :: rest => stringChars name ++ ':' :: chars value ++ ',' :: membersChars rest

end

/-- The text of a compact document. -/
def compact (document : Json) : String := String.ofList document.chars

/-- The start of a line at the given depth. -/
def newline (depth : Nat) : List Char := '\n' :: List.replicate (2 * depth) ' '

mutual

/-- An indented document inside containers of the given depth. -/
def indentedChars (depth : Nat) : Json → List Char
  | array (item :: rest) =>
    '[' :: indentedItems (depth + 1) (item :: rest) ++ newline depth ++ [']']
  | object (member :: rest) =>
    '\x7b' :: indentedMembers (depth + 1) (member :: rest) ++ newline depth ++ ['\x7d']
  | array [] => ['[', ']']
  | object [] => ['\x7b', '\x7d']
  | null => "null".toList
  | bool true => "true".toList
  | bool false => "false".toList
  | number literal => literal.toList
  | string value => stringChars value

/-- Items, each on a line of its own. -/
def indentedItems (depth : Nat) : List Json → List Char
  | [] => []
  | [item] => newline depth ++ indentedChars depth item
  | item :: rest => newline depth ++ indentedChars depth item ++ ',' :: indentedItems depth rest

/-- Members, each on a line of its own. -/
def indentedMembers (depth : Nat) : List (Option String × Json) → List Char
  | [] => []
  | [(name, value)] =>
    newline depth ++ stringChars name ++ ':' :: ' ' :: indentedChars depth value
  | (name, value) :: rest =>
    newline depth ++ stringChars name ++ ':' :: ' ' :: indentedChars depth value ++
      ',' :: indentedMembers depth rest

end

/-- The text of an indented document. -/
def indented (document : Json) : String := String.ofList (document.indentedChars 0)

/-- A quantity. -/
def ofFloat (x : Float) : Json :=
  if Binary64.isFinite x then number (Layout.document.finite x) else null

/-- A count. -/
def ofNat (n : Nat) : Json := number (toString n)

end Colloquy.Json
