/-!
# String literals

A literal stands between double quotes. Inside, a quote, a backslash, a line feed and a tab are
written with a backslash in front; a backslash before any other character is kept together with
that character.

`encode` writes the inside of a literal and `body` reads it up to the closing quote. Main
statement: `body_encode`, reading what was written gives the text back, with whatever follows the
closing quote left over.
-/

namespace Colloquy.Quoted

/-- The written form of one character. -/
def encodeChar : Char → List Char
  | '"' => ['\\', '"']
  | '\\' => ['\\', '\\']
  | '\n' => ['\\', 'n']
  | '\t' => ['\\', 't']
  | c => [c]

/-- The inside of the literal for a text. -/
def encode (cs : List Char) : List Char := cs.flatMap encodeChar

/-- What a backslash and the character after it stand for. -/
def decodePair : Char → List Char
  | '"' => ['"']
  | '\\' => ['\\']
  | 'n' => ['\n']
  | 't' => ['\t']
  | c => ['\\', c]

/-- How a literal can lack its closing quote. -/
inductive Unclosed
  /-- The text ends among the characters of the literal. -/
  | inText
  /-- The text ends after a backslash. -/
  | inEscape
deriving DecidableEq, Repr

/-- Reads the inside of a literal: its text, and what follows the closing quote. -/
def body : List Char → Except Unclosed (List Char × List Char)
  | [] => .error .inText
  | '"' :: rest => .ok ([], rest)
  | ['\\'] => .error .inEscape
  | '\\' :: c :: rest => (body rest).map fun (text, rest) => (decodePair c ++ text, rest)
  | c :: rest => (body rest).map fun (text, rest) => (c :: text, rest)

/-- What follows a literal is shorter than the literal and what follows it. -/
theorem length_lt_of_body {cs text rest : List Char} (h : body cs = .ok (text, rest)) :
    rest.length < cs.length := by
  fun_induction body cs generalizing text with
  | case1 => simp at h
  | case2 r =>
    simp only [Except.ok.injEq, Prod.mk.injEq] at h
    simp [h.2]
  | case3 => simp at h
  | case4 c r ih =>
    cases hb : body r with
    | error e => simp [hb, Except.map] at h
    | ok p =>
      obtain ⟨t, r'⟩ := p
      simp only [hb, Except.map, Except.ok.injEq, Prod.mk.injEq] at h
      have := ih (h.2 ▸ hb)
      simp only [List.length_cons]
      omega
  | case5 c r _ _ _ ih =>
    cases hb : body r with
    | error e => simp [hb, Except.map] at h
    | ok p =>
      obtain ⟨t, r'⟩ := p
      simp only [hb, Except.map, Except.ok.injEq, Prod.mk.injEq] at h
      have := ih (h.2 ▸ hb)
      simp only [List.length_cons]
      omega

/-- A character that is written as it stands is read as it stands. -/
theorem body_cons {c : Char} {rest : List Char} (hq : c ≠ '"') (hb : c ≠ '\\') :
    body (c :: rest) = (body rest).map fun (text, rest) => (c :: text, rest) := by
  rw [body.eq_def]
  split <;> simp_all

/-- Reading what was written gives the text back. -/
theorem body_encode (cs rest : List Char) : body (encode cs ++ '"' :: rest) = .ok (cs, rest) := by
  induction cs with
  | nil => rfl
  | cons c cs ih =>
    have step : encode (c :: cs) = encodeChar c ++ encode cs := rfl
    rw [step, List.append_assoc]
    unfold encodeChar
    split
    · simp [body, decodePair, ih, Except.map]
    · simp [body, decodePair, ih, Except.map]
    · simp [body, decodePair, ih, Except.map]
    · simp [body, decodePair, ih, Except.map]
    · rename_i hq hb _ _
      simp [body_cons hq hb, ih, Except.map]

end Colloquy.Quoted
