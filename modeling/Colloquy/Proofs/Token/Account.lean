import Colloquy.Proofs.Text.Quoted
import Colloquy.Proofs.Token

/-!
# Every character is accounted for

A text that can be tokenized is trivia and lexemes in turn (`Laid`): blanks and comments, then the
characters of a token, and so on, up to trivia at the end. Every token stands at the place that its
span says, which counts the line feeds in front of it and the characters since the last of these
(`Position.behind`). A text that cannot be tokenized is laid out likewise up to a quote that opens a
literal and is not closed.

The argument runs both ways. A stretch that is laid out is scanned to its tokens, whatever follows
it (`Laid.scan`), and whatever scanning gives accounts for the text (`accounts_scan`), by induction
along the scan. What is carried along is that no atom runs on from what was scanned into what is left
(`Parted`), so that atoms are the longest on both sides.

Main statement, `tokenize_accounts_for_text`.
-/

namespace Colloquy

/-! ## Places -/

namespace Position

/-- The place behind the characters at the start of a text: one line further down for every line
feed among them, and one column further for every character since the last of these. -/
def behind (before : List Char) : Position :=
  ⟨before.count '\n' + 1, (before.reverse.takeWhile (· ≠ '\n')).length + 1⟩

theorem next_behind (before : List Char) (c : Char) : (behind before).next c = behind (before ++ [c]) := by
  unfold next behind
  by_cases hend : c = '\n'
  · simp [hend]
  · simp [hend]

theorem after_behind (before cs : List Char) : (behind before).after cs = behind (before ++ cs) := by
  induction cs generalizing before with
  | nil => rw [List.append_nil]; rfl
  | cons c cs ih =>
    show ((behind before).next c).after cs = _
    rw [next_behind, ih, List.append_assoc]
    rfl

/-- Places are ordered by line, and on a line by column. -/
instance : LT Position := ⟨fun p q => p.line < q.line ∨ p.line = q.line ∧ p.column < q.column⟩

instance : LE Position := ⟨fun p q => p.line < q.line ∨ p.line = q.line ∧ p.column ≤ q.column⟩

theorem lt_def {p q : Position} :
    p < q ↔ p.line < q.line ∨ p.line = q.line ∧ p.column < q.column := Iff.rfl

theorem le_def {p q : Position} :
    p ≤ q ↔ p.line < q.line ∨ p.line = q.line ∧ p.column ≤ q.column := Iff.rfl

theorem le_trans {p q r : Position} (h : p ≤ q) (h' : q ≤ r) : p ≤ r := by
  rw [le_def] at h h' ⊢
  omega

theorem le_of_lt {p q : Position} (h : p < q) : p ≤ q := by
  rw [lt_def] at h
  rw [le_def]
  omega

theorem lt_of_lt_of_le {p q r : Position} (h : p < q) (h' : q ≤ r) : p < r := by
  rw [lt_def] at h ⊢
  rw [le_def] at h'
  omega

theorem lt_next (p : Position) (c : Char) : p < p.next c := by
  rw [lt_def]
  unfold next
  by_cases hend : c = '\n'
  · rw [if_pos hend]
    exact .inl (Nat.lt_succ_self _)
  · rw [if_neg hend]
    exact .inr ⟨rfl, Nat.lt_succ_self _⟩

theorem le_after (p : Position) (cs : List Char) : p ≤ p.after cs := by
  induction cs generalizing p with
  | nil => exact .inr ⟨rfl, Nat.le_refl _⟩
  | cons c cs ih => exact le_trans (le_of_lt (lt_next p c)) (ih _)

theorem lt_after (p : Position) {cs : List Char} (h : cs ≠ []) : p < p.after cs := by
  obtain ⟨c, rest, rfl⟩ := List.exists_cons_of_ne_nil h
  exact lt_of_lt_of_le (lt_next p c) (le_after _ rest)

theorem behind_le_append (before cs : List Char) : behind before ≤ behind (before ++ cs) := by
  rw [← after_behind]
  exact le_after _ _

end Position

namespace Token

open Position (behind)

/-! ## Texts laid out -/

/-- Blanks and comments in front of `rest`. A comment ends where a line feed follows, or nothing. -/
inductive IsTrivia (rest : List Char) : List Char → Prop
  | nil : IsTrivia rest []
  | blank {c : Char} {cs : List Char} (hc : isBlank c = true) (more : IsTrivia rest cs) :
      IsTrivia rest (c :: cs)
  | comment {line cs : List Char} (hline : ∀ c ∈ line, c ≠ '\n')
      (hends : EndsStretch (· ≠ '\n') (cs ++ rest)) (more : IsTrivia rest cs) :
      IsTrivia rest (';' :: line ++ cs)

/-- The characters of a token, between what stands before them and behind them. An atom could be no
longer on either side. -/
inductive IsLexeme (before rest : List Char) : List Char → Lexeme → Prop
  | openList : IsLexeme before rest ['('] .openList
  | closeList : IsLexeme before rest [')'] .closeList
  | text {inside text : List Char} (h : Quoted.StandsFor inside text) :
      IsLexeme before rest ('"' :: inside ++ ['"']) (.text (String.ofList text))
  | atom {chars : List Char} (h : IsAtom chars) (hbefore : EndsStretch isAtomChar before.reverse)
      (hrest : EndsStretch isAtomChar rest) : IsLexeme before rest chars (.atom chars)

/-- The stretch of a text between `before` and `rest` as trivia and lexemes in turn, with the tokens
that these make. -/
inductive Laid (rest : List Char) : List Char → List Char → List Token → Prop
  | trivia {before gap : List Char} (hgap : IsTrivia rest gap) : Laid rest before gap []
  | token {before gap chars more : List Char} {lexeme : Lexeme} {tokens : List Token}
      (hgap : IsTrivia (chars ++ (more ++ rest)) gap)
      (hchars : IsLexeme (before ++ gap) (more ++ rest) chars lexeme)
      (hmore : Laid rest (before ++ gap ++ chars) more tokens) :
      Laid rest before (gap ++ (chars ++ more))
        (⟨lexeme, behind (before ++ gap), behind (before ++ gap ++ chars)⟩ :: tokens)

/-- Whether the quote behind `before` opens a literal of the text that nothing closes. -/
def OpensUnclosed (source before : List Char) : Prop :=
  ∃ rest tokens, source = before ++ '"' :: rest ∧ Laid ('"' :: rest) [] before tokens ∧
    ¬ Quoted.Closes rest

variable {before rest gap chars cs : List Char} {lexeme : Lexeme} {tokens : List Token}

theorem IsTrivia.append {more : List Char} (h : IsTrivia (more ++ rest) gap)
    (hmore : IsTrivia rest more) : IsTrivia rest (gap ++ more) := by
  induction h with
  | nil => exact hmore
  | blank hc _ ih => exact .blank hc ih
  | @comment line cs hline hends _ ih =>
    rw [List.append_assoc]
    refine .comment hline ?_ ih
    rw [List.append_assoc]
    exact hends

theorem IsLexeme.ne_nil (h : IsLexeme before rest chars lexeme) : chars ≠ [] := by
  cases h with
  | openList | closeList | text _ => exact List.cons_ne_nil _ _
  | atom h _ _ => exact h.1

/-! ## From the layout to the scan -/

theorem IsTrivia.scan (h : IsTrivia rest gap) (here : Position) :
    scan here (gap ++ rest) = scan (here.after gap) rest := by
  induction h generalizing here with
  | nil => rfl
  | blank hc _ ih =>
    rw [List.cons_append, scan_blank _ _ hc, ih]
    rfl
  | @comment line cs hline hends _ ih =>
    have hstretch : ∀ c ∈ line, decide (c ≠ '\n') = true := by
      intro c hc
      exact decide_eq_true (hline c hc)
    rw [List.append_assoc, List.cons_append, scan_comment, takeWhile_stretch hstretch hends,
      dropWhile_stretch hstretch hends, ih, ← Position.after_append]
    rfl

/-- A literal ends behind its closing quote. -/
theorem literalEnd_quoted (here : Position) (inside left : List Char) :
    literalEnd here ('"' :: (inside ++ '"' :: left)) left = here.after ('"' :: inside ++ ['"']) := by
  have hlength : ('"' :: (inside ++ '"' :: left)).length - left.length
      = ('"' :: inside ++ ['"']).length := by
    simp only [List.length_cons, List.length_append, List.length_nil]
    omega
  have hsplit : '"' :: (inside ++ '"' :: left) = ('"' :: inside ++ ['"']) ++ left := by simp
  unfold literalEnd
  rw [hlength, hsplit, List.take_left]

theorem IsLexeme.scan (h : IsLexeme before rest chars lexeme) (here : Position) :
    scan here (chars ++ rest)
      = (scan (here.after chars) rest).map (⟨lexeme, here, here.after chars⟩ :: ·) := by
  cases h with
  | openList => exact scan_open here rest
  | closeList => exact scan_close here rest
  | @text inside text h =>
    rw [List.append_assoc, List.cons_append, ← literalEnd_quoted here inside rest]
    exact scan_text here (h.body rest)
  | atom h _ hrest =>
    obtain ⟨hne, hchars⟩ := h
    obtain ⟨c, tail, rfl⟩ := List.exists_cons_of_ne_nil hne
    obtain ⟨hc, htail⟩ := List.forall_mem_cons.mp hchars
    rw [List.cons_append, scan_atom here hc, takeWhile_stretch htail hrest, dropWhile_stretch htail hrest]

/-- A stretch that is laid out is scanned to its tokens, and the scan goes on behind it. -/
theorem Laid.scan (h : Laid rest before cs tokens) :
    scan (behind before) (cs ++ rest) = (scan (behind (before ++ cs)) rest).map (tokens ++ ·) := by
  induction h with
  | @trivia before gap hgap =>
    rw [hgap.scan, Position.after_behind]
    cases Token.scan (behind (before ++ gap)) rest <;> rfl
  | @token before gap chars more lexeme tokens hgap hchars _ ih =>
    rw [List.append_assoc, List.append_assoc, hgap.scan, hchars.scan, Position.after_behind,
      Position.after_behind, ih, List.append_assoc, List.append_assoc, List.append_assoc]
    cases Token.scan (behind (before ++ (gap ++ (chars ++ more)))) rest <;> rfl

/-! ## From the scan to the layout -/

/-- What the result of a scan says of the text, behind what stands before it: it is laid out with the
tokens given, or up to the quote that the fault names. -/
def Accounts (before cs : List Char) : Except ReadingFault (List Token) → Prop
  | .ok tokens => Laid [] before cs tokens
  | .error fault => ∃ front rest tokens, cs = front ++ '"' :: rest ∧
      Laid ('"' :: rest) before front tokens ∧ ¬ Quoted.Closes rest ∧ fault.kind = .unterminatedString ∧
      fault.span? = some ⟨behind (before ++ front), behind (before ++ cs)⟩

/-- Trivia in front of what is laid out. -/
theorem Laid.skip (hgap : IsTrivia (cs ++ rest) gap) (h : Laid rest (before ++ gap) cs tokens) :
    Laid rest before (gap ++ cs) tokens := by
  cases h with
  | trivia hmore => exact .trivia (hgap.append hmore)
  | @token _ inner chars more lexeme tokens hinner hchars hmore =>
    rw [List.append_assoc, List.append_assoc chars] at hgap
    rw [List.append_assoc before gap inner] at hchars hmore ⊢
    rw [← List.append_assoc gap]
    exact .token (hgap.append hinner) hchars hmore

/-- A lexeme in front of what is laid out. -/
theorem Laid.cons (hchars : IsLexeme before (cs ++ rest) chars lexeme)
    (h : Laid rest (before ++ chars) cs tokens) :
    Laid rest before (chars ++ cs) (⟨lexeme, behind before, (behind before).after chars⟩ :: tokens) := by
  have hlaid : Laid rest before ([] ++ (chars ++ cs))
      (⟨lexeme, behind (before ++ []), behind (before ++ [] ++ chars)⟩ :: tokens) :=
    .token .nil (by rwa [List.append_nil]) (by rwa [List.append_nil])
  rwa [List.append_nil, List.nil_append, ← Position.after_behind] at hlaid

namespace Accounts

variable {scanned : Except ReadingFault (List Token)}

theorem skip (hgap : IsTrivia cs gap) (h : Accounts (before ++ gap) cs scanned) :
    Accounts before (gap ++ cs) scanned := by
  cases scanned with
  | ok tokens =>
    refine Laid.skip ?_ h
    rw [List.append_nil]
    exact hgap
  | error fault =>
    obtain ⟨front, rest, tokens, rfl, hfront, hopen, hkind, hspan⟩ := h
    rw [List.append_assoc, List.append_assoc] at hspan
    exact ⟨gap ++ front, rest, tokens, (List.append_assoc ..).symm, hfront.skip hgap, hopen, hkind, hspan⟩

theorem token (hchars : IsLexeme before cs chars lexeme) (h : Accounts (before ++ chars) cs scanned) :
    Accounts before (chars ++ cs)
      (scanned.map (⟨lexeme, behind before, (behind before).after chars⟩ :: ·)) := by
  cases scanned with
  | ok tokens => exact Laid.cons (by rwa [List.append_nil]) h
  | error fault =>
    obtain ⟨front, rest, tokens, rfl, hfront, hopen, hkind, hspan⟩ := h
    rw [List.append_assoc, List.append_assoc] at hspan
    exact ⟨chars ++ front, rest, _, (List.append_assoc ..).symm, hfront.cons hchars, hopen, hkind, hspan⟩

end Accounts

/-- Whether no atom runs on from the one text into the other. -/
def Parted (before rest : List Char) : Prop :=
  EndsStretch isAtomChar before.reverse ∨ EndsStretch isAtomChar rest

theorem parted_behind {c : Char} (hc : isAtomChar c = false) (before rest : List Char) :
    Parted (before ++ [c]) rest := by
  refine .inl ?_
  rw [List.reverse_append]
  exact endsStretch_cons.mpr hc

/-- **What scanning gives accounts for the text.** -/
theorem accounts_scan (here : Position) (cs : List Char) : ∀ before, here = behind before →
    Parted before cs → Accounts before cs (scan here cs) := by
  induction here, cs using scan_induction with
  | nil here =>
    intro before hhere hparted
    rw [scan_nil]
    exact Laid.trivia .nil
  | blank here c rest hc ih =>
    intro before hhere hparted
    rw [scan_blank here rest hc]
    have hnext : here.next c = behind (before ++ [c]) := by rw [hhere, Position.next_behind]
    have hblank : isAtomChar c = false := by simp [isAtomChar, hc]
    exact .skip (.blank hc .nil) (ih _ hnext (parted_behind hblank before rest))
  | comment here rest ih =>
    intro before hhere hparted
    have hline : ∀ c ∈ rest.takeWhile (· ≠ '\n'), c ≠ '\n' := by
      intro c hc
      exact of_decide_eq_true (List.all_eq_true.mp List.all_takeWhile c hc)
    have hends := endsStretch_dropWhile (· ≠ '\n') rest
    have hgap : IsTrivia (rest.dropWhile (· ≠ '\n')) (';' :: rest.takeWhile (· ≠ '\n') ++ []) :=
      .comment hline hends .nil
    rw [List.append_nil] at hgap
    have hnext : (here.next ';').after (rest.takeWhile (· ≠ '\n'))
        = behind (before ++ ';' :: rest.takeWhile (· ≠ '\n')) := by
      rw [hhere, ← Position.after_behind]
      rfl
    have hsplit : ';' :: rest = (';' :: rest.takeWhile (· ≠ '\n')) ++ rest.dropWhile (· ≠ '\n') := by
      rw [List.cons_append, List.takeWhile_append_dropWhile]
    -- behind a comment stands a line feed, if anything
    have hfeed : EndsStretch isAtomChar (rest.dropWhile (· ≠ '\n')) := by
      cases hrest : rest.dropWhile (· ≠ '\n') with
      | nil => exact endsStretch_nil
      | cons c more =>
        rw [hrest] at hends
        obtain rfl : c = '\n' := by simpa using endsStretch_cons.mp hends
        exact endsStretch_cons.mpr (by decide)
    rw [scan_comment, hsplit]
    exact .skip hgap (ih _ hnext (.inr hfeed))
  | openList here rest ih =>
    intro before hhere hparted
    subst hhere
    rw [scan_open]
    exact .token .openList (ih _ (Position.next_behind ..) (parted_behind (by decide) before rest))
  | closeList here rest ih =>
    intro before hhere hparted
    subst hhere
    rw [scan_close]
    exact .token .closeList (ih _ (Position.next_behind ..) (parted_behind (by decide) before rest))
  | unclosed here rest cause hbody =>
    intro before hhere hparted
    subst hhere
    rw [scan_unclosed _ hbody, Position.after_behind]
    refine ⟨[], rest, [], rfl, .trivia .nil, Quoted.exists_body_eq_error.mp ⟨cause, hbody⟩, rfl, ?_⟩
    rw [List.append_nil]
    rfl
  | text here rest cs left hbody ih =>
    intro before hhere hparted
    subst hhere
    obtain ⟨inside, rfl, hinside⟩ := Quoted.body_eq_ok.mp hbody
    rw [literalEnd_quoted] at ih
    rw [scan_text _ hbody, literalEnd_quoted]
    have hsplit : '"' :: (inside ++ '"' :: left) = ('"' :: inside ++ ['"']) ++ left := by simp
    rw [hsplit]
    refine .token (.text hinside) (ih _ (Position.after_behind ..) ?_)
    rw [← List.append_assoc]
    exact parted_behind (by decide) _ left
  | atom here c rest hc ih =>
    intro before hhere hparted
    subst hhere
    have hbefore : EndsStretch isAtomChar before.reverse := by
      refine hparted.resolve_right fun hends => ?_
      rw [endsStretch_cons.mp hends] at hc
      cases hc
    have hends := endsStretch_dropWhile isAtomChar rest
    have hsplit : c :: rest = (c :: rest.takeWhile isAtomChar) ++ rest.dropWhile isAtomChar := by
      rw [List.cons_append, List.takeWhile_append_dropWhile]
    rw [scan_atom _ hc, hsplit]
    exact .token (.atom (isAtom_cons rest hc) hbefore hends) (ih _ (Position.after_behind ..) (.inr hends))

/-- The tokens of a stretch that is laid out take up some characters each and come one after another. -/
theorem Laid.ordered (h : Laid rest before cs tokens) :
    (∀ token ∈ tokens, behind before ≤ token.span.start ∧ token.span.start < token.span.stop) ∧
      tokens.Pairwise fun a b => a.span.stop ≤ b.span.start := by
  induction h with
  | trivia _ => exact ⟨List.forall_mem_nil _, .nil⟩
  | @token before gap chars more lexeme tokens hgap hchars _ ih =>
    obtain ⟨hwithin, hpairwise⟩ := ih
    have hstart : behind before ≤ behind (before ++ gap) := Position.behind_le_append before gap
    have hstop : behind (before ++ gap) < behind (before ++ gap ++ chars) := by
      rw [← Position.after_behind (before ++ gap)]
      exact Position.lt_after _ hchars.ne_nil
    refine ⟨List.forall_mem_cons.mpr ⟨⟨hstart, hstop⟩, ?_⟩, .cons ?_ hpairwise⟩
    · intro token htoken
      obtain ⟨hfrom, hspan⟩ := hwithin token htoken
      exact ⟨Position.le_trans (Position.le_trans hstart (Position.le_of_lt hstop)) hfrom, hspan⟩
    · intro token htoken
      exact (hwithin token htoken).1

end Token

open Position (behind)
open Token (Laid OpensUnclosed)

/-- **Every character is accounted for.** The tokens of a text are those that it is laid out as, with
their lexemes, blanks and comments between them making up the text; they take up some characters each
and come one after another. A text has no tokens just when some quote opens a literal that nothing
closes, and what is blamed is the stretch from that quote to the end of the text. -/
theorem tokenize_accounts_for_text (source : String) :
    (∀ tokens, tokenize source = .ok tokens ↔ Laid [] [] source.toList tokens) ∧
    (∀ tokens, tokenize source = .ok tokens →
      (∀ token ∈ tokens, token.span.start < token.span.stop) ∧
        tokens.Pairwise fun a b => a.span.stop ≤ b.span.start) ∧
    (∀ fault, tokenize source = .error fault → ∃ before, OpensUnclosed source.toList before) ∧
    ∀ before, OpensUnclosed source.toList before → ∃ fault, tokenize source = .error fault ∧
      fault.kind = .unterminatedString ∧ fault.span? = some ⟨behind before, behind source.toList⟩ := by
  have haccounts := Token.accounts_scan Position.start source.toList [] rfl (.inl endsStretch_nil)
  have hlaid : ∀ tokens, tokenize source = .ok tokens ↔ Laid [] [] source.toList tokens := by
    intro tokens
    constructor
    · intro h
      have hscan : Token.scan Position.start source.toList = .ok tokens := h
      rw [hscan] at haccounts
      exact haccounts
    · intro h
      have hscan := h.scan
      rw [List.append_nil, Token.scan_nil] at hscan
      refine hscan.trans (congrArg Except.ok ?_)
      exact List.append_nil tokens
  refine ⟨hlaid, ?_, ?_, ?_⟩
  · intro tokens h
    obtain ⟨hwithin, hpairwise⟩ := ((hlaid tokens).mp h).ordered
    exact ⟨fun token htoken => (hwithin token htoken).2, hpairwise⟩
  · intro fault h
    have hscan : Token.scan Position.start source.toList = .error fault := h
    rw [hscan] at haccounts
    obtain ⟨front, rest, tokens, hsource, hfront, hopen, -, -⟩ := haccounts
    exact ⟨front, rest, tokens, hsource, hfront, hopen⟩
  · intro before h
    obtain ⟨rest, tokens, hsource, hbefore, hopen⟩ := h
    obtain ⟨cause, hbody⟩ := Quoted.exists_body_eq_error.mpr hopen
    have hscan := hbefore.scan
    rw [List.nil_append, Token.scan_unclosed _ hbody, Position.after_behind, ← hsource] at hscan
    exact ⟨_, hscan, rfl, rfl⟩

/-- A literal over two lines with an escaped quote in it and an atom against its end, and a text whose
literal ends in an escape. -/
theorem tokenize_accounts_for_lines :
    (∃ tokens, tokenize "(say ; so\n \"a\\\"\n\"x)" = .ok tokens ∧
      Laid [] [] "(say ; so\n \"a\\\"\n\"x)".toList tokens ∧
      tokens.map (·.span) = [⟨⟨1, 1⟩, ⟨1, 2⟩⟩, ⟨⟨1, 2⟩, ⟨1, 5⟩⟩, ⟨⟨2, 2⟩, ⟨3, 2⟩⟩, ⟨⟨3, 2⟩, ⟨3, 3⟩⟩,
        ⟨⟨3, 3⟩, ⟨3, 4⟩⟩] ∧
      tokens.Pairwise fun a b => a.span.stop ≤ b.span.start) ∧
    ∃ fault, tokenize "(\n\"a\\" = .error fault ∧ OpensUnclosed "(\n\"a\\".toList ['(', '\n'] ∧
      fault.span? = some ⟨⟨2, 1⟩, ⟨2, 4⟩⟩ := by
  constructor
  · have htokens : tokenize "(say ; so\n \"a\\\"\n\"x)" = .ok [⟨.openList, ⟨1, 1⟩, ⟨1, 2⟩⟩,
        ⟨.atom ['s', 'a', 'y'], ⟨1, 2⟩, ⟨1, 5⟩⟩, ⟨.text "a\"\n", ⟨2, 2⟩, ⟨3, 2⟩⟩,
        ⟨.atom ['x'], ⟨3, 2⟩, ⟨3, 3⟩⟩, ⟨.closeList, ⟨3, 3⟩, ⟨3, 4⟩⟩] := by with_unfolding_all rfl
    obtain ⟨hlaid, hordered, -, -⟩ := tokenize_accounts_for_text "(say ; so\n \"a\\\"\n\"x)"
    exact ⟨_, htokens, (hlaid _).mp htokens, rfl, (hordered _ htokens).2⟩
  · have hopens : OpensUnclosed "(\n\"a\\".toList ['(', '\n'] := by
      have hbefore : Laid ['"', 'a', '\\'] [] ['(', '\n'] [⟨.openList, behind [], behind ['(']⟩] :=
        .cons .openList (.trivia (.blank (by decide) .nil))
      exact ⟨['a', '\\'], _, by decide, hbefore, Quoted.exists_body_eq_error.mp ⟨.inEscape, rfl⟩⟩
    obtain ⟨-, -, -, hblamed⟩ := tokenize_accounts_for_text "(\n\"a\\"
    obtain ⟨fault, hfault, -, hspan⟩ := hblamed _ hopens
    refine ⟨fault, hfault, hopens, hspan.trans ?_⟩
    decide

end Colloquy
