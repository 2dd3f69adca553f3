import Colloquy.Fault
import Colloquy.Text.Blank

/-!
# Tokens

Script text is blanks and comments around four kinds of tokens: the two parentheses, string
literals and atoms. A comment runs from a semicolon up to a line feed; an atom is the longest run
of characters that are not blank and none of `( ) " ;`. Each token carries its span.
-/

namespace Colloquy

/-- What a token is. -/
inductive Lexeme
  | openList
  | closeList
  /-- A string literal, by the text it stands for. -/
  | text (value : String)
  /-- A number or a symbol, as written. -/
  | atom (chars : List Char)
deriving DecidableEq

/-- A lexeme and where it stands. -/
structure Token where
  lexeme : Lexeme
  span : Span
deriving DecidableEq

/-- The characters that no atom holds. -/
def isDelimiter (c : Char) : Bool := c = '(' || c = ')' || c = '"' || c = ';'

/-- The characters of atoms. -/
def isAtomChar (c : Char) : Bool := !isBlank c && !isDelimiter c

theorem length_dropWhile_le {α : Type u} (p : α → Bool) (l : List α) :
    (l.dropWhile p).length ≤ l.length :=
  (List.dropWhile_suffix p).length_le

namespace Token

/-- The tokens of a text that continues at `here`. -/
def scan (here : Position) (cs : List Char) : Except ReadingFault (List Token) :=
  match cs with
  | [] => .ok []
  | c :: rest =>
    if isBlank c then scan (here.next c) rest
    else if c = ';' then
      let comment := rest.takeWhile (· ≠ '\n')
      scan ((here.next c).after comment) (rest.dropWhile (· ≠ '\n'))
    else if c = '(' then
      (scan (here.next c) rest).map fun tokens => ⟨.openList, here, here.next c⟩ :: tokens
    else if c = ')' then
      (scan (here.next c) rest).map fun tokens => ⟨.closeList, here, here.next c⟩ :: tokens
    else if c = '"' then
      match h : Quoted.body rest with
      | .error cause => .error (.unclosedText ⟨here, here.after cs⟩ (cause = .inEscape))
      | .ok (text, left) =>
        have : left.length < rest.length := Quoted.length_lt_of_body h
        let stop := here.after (cs.take (cs.length - left.length))
        (scan stop left).map fun tokens => ⟨.text (String.ofList text), here, stop⟩ :: tokens
    else
      let atom := c :: rest.takeWhile isAtomChar
      let stop := here.after atom
      have : (rest.dropWhile isAtomChar).length ≤ rest.length := length_dropWhile_le _ _
      (scan stop (rest.dropWhile isAtomChar)).map fun tokens => ⟨.atom atom, here, stop⟩ :: tokens
termination_by cs.length
decreasing_by
  all_goals simp only [List.length_cons]
  · omega
  · have : (rest.dropWhile (· ≠ '\n')).length ≤ rest.length := length_dropWhile_le _ _
    omega
  · omega
  · omega
  · omega
  · omega

end Token

/-- The tokens of a text. -/
def tokenize (source : String) : Except ReadingFault (List Token) :=
  Token.scan Position.start source.toList

end Colloquy
