import Colloquy.Expr.Reader
import Colloquy.Proofs.Token

/-!
# Reading, token by token

What one token does to the lists that are open and the forms that are finished (`assemble_open` and
so on), and what reading does with the places that it carries along: nothing. The same text some
lines further down has the same tokens, each that many lines further down (`Token.scan_down`), and
they make the same expressions or the same fault, that many lines further down too
(`assemble_down`). Columns stay, because whole lines are in between.
-/

namespace Colloquy

/-! ## One token -/

section Step

variable {token : Token} (stack : List OpenList) (done : List Expr) (rest : List Token)

theorem assemble_open (h : token.lexeme = .openList) :
    assemble stack done (token :: rest) = assemble (⟨token.span, []⟩ :: stack) done rest := by
  cases stack <;> simp [assemble, h]

theorem assemble_stray (h : token.lexeme = .closeList) :
    assemble [] done (token :: rest) = .error (.strayClose token.span) := by
  simp [assemble, h]

theorem assemble_close (h : token.lexeme = .closeList) (inner : OpenList) :
    assemble (inner :: stack) done (token :: rest)
      = assemble (place (.list inner.items.reverse) stack done).1
          (place (.list inner.items.reverse) stack done).2 rest := by
  simp [assemble, h]

theorem assemble_text {value : String} (h : token.lexeme = .text value) :
    assemble stack done (token :: rest)
      = assemble (place (.text value) stack done).1 (place (.text value) stack done).2 rest := by
  cases stack <;> simp [assemble, h]

theorem assemble_atom {chars : List Char} (h : token.lexeme = .atom chars) :
    assemble stack done (token :: rest)
      = assemble (place (classifyAtom chars) stack done).1 (place (classifyAtom chars) stack done).2
          rest := by
  cases stack <;> simp [assemble, h]

end Step

/-! ## Places further down -/

/-- The place in the same column so many lines below. -/
def Position.down (lines : Nat) (p : Position) : Position := ⟨p.line + lines, p.column⟩

def Span.down (lines : Nat) (span : Span) : Span := ⟨span.start.down lines, span.stop.down lines⟩

def Token.down (lines : Nat) (token : Token) : Token := ⟨token.lexeme, token.span.down lines⟩

def OpenList.down (lines : Nat) (inner : OpenList) : OpenList := ⟨inner.span.down lines, inner.items⟩

/-- The same fault in a text so many lines below. -/
def ReadingFault.down (lines : Nat) : ReadingFault → ReadingFault
  | unclosedText span inEscape => unclosedText (span.down lines) inEscape
  | strayClose span => strayClose (span.down lines)
  | unclosedList span => unclosedList (span.down lines)
  | notSingle count => notSingle count

variable {lines : Nat}

namespace Position

theorem down_next (p : Position) (c : Char) : (p.down lines).next c = (p.next c).down lines := by
  unfold next down
  by_cases hend : c = '\n'
  · rw [if_pos hend, if_pos hend, Nat.add_right_comm]
  · rw [if_neg hend, if_neg hend]

theorem down_after (p : Position) (cs : List Char) :
    (p.down lines).after cs = (p.after cs).down lines := by
  induction cs generalizing p with
  | nil => rfl
  | cons c cs ih =>
    show ((p.down lines).next c).after cs = ((p.next c).after cs).down lines
    rw [down_next, ih]

theorem line_after (p : Position) (cs : List Char) :
    (p.after cs).line = p.line + cs.count '\n' := by
  induction cs generalizing p with
  | nil => rfl
  | cons c cs ih =>
    show ((p.next c).after cs).line = _
    rw [ih, List.count_cons]
    unfold next
    by_cases hend : c = '\n'
    · simp only [hend, ↓reduceIte, BEq.rfl]
      omega
    · simp [hend]

/-- After a text and a line feed comes the start of a line, as many lines below as the text has line
feeds, and one more. -/
theorem next_after_start (cs : List Char) :
    (start.after cs).next '\n' = start.down (1 + cs.count '\n') := by
  show (⟨(start.after cs).line + 1, 1⟩ : Position) = ⟨start.line + (1 + cs.count '\n'), 1⟩
  rw [line_after, Nat.add_assoc, Nat.add_comm 1]

end Position

namespace ReadingFault

@[simp] theorem kind_down (fault : ReadingFault) : (fault.down lines).kind = fault.kind := by
  cases fault <;> rfl

@[simp] theorem span?_down (fault : ReadingFault) :
    (fault.down lines).span? = fault.span?.map (·.down lines) := by
  cases fault <;> rfl

end ReadingFault

/-! ## Text further down -/

/-- Moving what was scanned down moves the first token and the others. -/
theorem map_tokens_down (token : Token) (scanned : Except ReadingFault (List Token)) :
    ((scanned.map (token :: ·)).map (·.map (·.down lines))).mapError (·.down lines)
      = ((scanned.map (·.map (·.down lines))).mapError (·.down lines)).map (token.down lines :: ·) := by
  cases scanned <;> rfl

theorem Token.scan_down (here : Position) (cs : List Char) :
    scan (here.down lines) cs
      = ((scan here cs).map (·.map (·.down lines))).mapError (·.down lines) := by
  induction here, cs using scan_induction with
  | nil here =>
    rw [scan_nil, scan_nil]
    rfl
  | blank here c rest hc ih => rw [scan_blank _ _ hc, scan_blank _ _ hc, Position.down_next, ih]
  | comment here rest ih =>
    rw [scan_comment, scan_comment, Position.down_next, Position.down_after, ih]
  | openList here rest ih =>
    rw [scan_open, scan_open, Position.down_next, ih, map_tokens_down]
    rfl
  | closeList here rest ih =>
    rw [scan_close, scan_close, Position.down_next, ih, map_tokens_down]
    rfl
  | unclosed here rest cause hbody =>
    rw [scan_unclosed _ hbody, scan_unclosed _ hbody, Position.down_after]
    rfl
  | text here rest cs left hbody ih =>
    have hend : literalEnd (here.down lines) ('"' :: rest) left
        = (literalEnd here ('"' :: rest) left).down lines := Position.down_after _ _
    rw [scan_text _ hbody, scan_text _ hbody, hend, ih, map_tokens_down]
    rfl
  | atom here c rest hc ih =>
    rw [scan_atom _ hc, scan_atom _ hc, Position.down_after, ih, map_tokens_down]
    rfl

theorem place_down (e : Expr) (stack : List OpenList) (done : List Expr) :
    place e (stack.map (·.down lines)) done
      = ((place e stack done).1.map (·.down lines), (place e stack done).2) := by
  cases stack <;> rfl

theorem assemble_down (lines : Nat) (tokens : List Token) : ∀ (stack : List OpenList) (done : List Expr),
    assemble (stack.map (·.down lines)) done (tokens.map (·.down lines))
      = (assemble stack done tokens).mapError (·.down lines) := by
  induction tokens with
  | nil =>
    intro stack done
    cases stack <;> rfl
  | cons token rest ih =>
    intro stack done
    have hlexeme' : (token.down lines).lexeme = token.lexeme := rfl
    rw [List.map_cons]
    cases hlexeme : token.lexeme with
    | openList =>
      rw [assemble_open _ _ _ hlexeme, assemble_open _ _ _ (hlexeme'.trans hlexeme), ← ih]
      rfl
    | closeList =>
      cases stack with
      | nil =>
        rw [assemble_stray _ _ hlexeme]
        exact assemble_stray _ _ (hlexeme'.trans hlexeme)
      | cons inner outer =>
        have hclosed := assemble_close (outer.map (·.down lines)) done (rest.map (·.down lines))
          (hlexeme'.trans hlexeme) (inner.down lines)
        rw [place_down, ih] at hclosed
        rw [assemble_close _ _ _ hlexeme]
        exact hclosed
    | text value =>
      rw [assemble_text _ _ _ hlexeme, assemble_text _ _ _ (hlexeme'.trans hlexeme), place_down, ih]
    | atom chars =>
      rw [assemble_atom _ _ _ hlexeme, assemble_atom _ _ _ (hlexeme'.trans hlexeme), place_down, ih]

end Colloquy
