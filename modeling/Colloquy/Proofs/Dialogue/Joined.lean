import Colloquy.Proofs.Dialogue.Grammar
import Colloquy.Proofs.Expr.Reader
import Colloquy.Proofs.Text.Quoted

/-!
# Reading joined texts

Two texts joined by a line feed are read as the first and then the second, if the first can be read.
Such a text ends outside any list and any literal, so the line feed ends whatever it ends with, be it
a comment, an atom or nothing at all (`Token.scan_joined`), and no list is left open over it
(`assemble_append`). The second text starts a line of its own, so that it is read as if it stood
alone, only further down (`readSource_joined`).

Main statement, `Program.reading_is_compositional`: that, and what follows from it for programs. The
program of some files is the program of their texts, joined by line feeds in the order of the paths.
-/

namespace Colloquy

namespace Quoted

/-! ## Literals with more behind them -/

/-- What is left of a text after a literal is the end of the text. -/
theorem suffix_of_body {cs text left : List Char} (h : body cs = .ok (text, left)) : left <:+ cs := by
  obtain ⟨inside, rfl, -⟩ := body_eq_ok.mp h
  exact (List.suffix_cons '"' left).trans (List.suffix_append inside _)

/-- A literal ends at its closing quote, whatever follows. -/
theorem body_append {cs text left : List Char} (h : body cs = .ok (text, left)) (more : List Char) :
    body (cs ++ more) = .ok (text, left ++ more) := by
  obtain ⟨inside, rfl, hinside⟩ := body_eq_ok.mp h
  rw [List.append_assoc, List.cons_append]
  exact hinside.body (left ++ more)

end Quoted

/-! ## Joined tokens -/

namespace Token

/-- A literal ends where it ended, whatever follows. -/
theorem literalEnd_append (here : Position) (literal left more : List Char) :
    literalEnd here (literal ++ more) (left ++ more) = literalEnd here literal left := by
  unfold literalEnd
  rw [List.length_append, List.length_append, Nat.add_sub_add_right,
    List.take_append_of_le_length (Nat.sub_le _ _)]

theorem after_literalEnd (here : Position) {literal left : List Char} (h : left <:+ literal) :
    (literalEnd here literal left).after left = here.after literal := by
  obtain ⟨before, rfl⟩ := h
  unfold literalEnd
  rw [List.length_append, Nat.add_sub_cancel, List.take_left, Position.after_append]

/-- A line feed behind a text that can be scanned ends its last token or comment. -/
theorem scan_joined {here : Position} {cs : List Char} {tokens : List Token}
    (h : scan here cs = .ok tokens) (rest : List Char) :
    scan here (cs ++ '\n' :: rest)
      = (scan ((here.after cs).next '\n') rest).map (tokens ++ ·) := by
  have hcons : ∀ (token : Token) (others : List Token) (scanned : Except ReadingFault (List Token)),
      (scanned.map (others ++ ·)).map (token :: ·) = scanned.map (token :: others ++ ·) := by
    intro token others scanned
    cases scanned <;> rfl
  induction here, cs using scan_induction generalizing tokens with
  | nil here =>
    rw [scan_nil] at h
    cases h
    rw [List.nil_append, scan_blank _ _ (by decide)]
    show _ = (scan (here.next '\n') rest).map _
    cases scan (here.next '\n') rest <;> rfl
  | blank here c cs hc ih =>
    rw [scan_blank _ _ hc] at h
    rw [List.cons_append, scan_blank _ _ hc, ih h]
    rfl
  | comment here cs ih =>
    rw [scan_comment] at h
    rw [List.cons_append, scan_comment, takeWhile_append_ended (by decide),
      dropWhile_append_ended (by decide), ih h, ← Position.after_append, List.takeWhile_append_dropWhile]
    rfl
  | openList here cs ih =>
    rw [scan_open] at h
    obtain ⟨others, hothers, rfl⟩ := map_eq_ok.mp h
    rw [List.cons_append, scan_open, ih hothers, hcons]
    rfl
  | closeList here cs ih =>
    rw [scan_close] at h
    obtain ⟨others, hothers, rfl⟩ := map_eq_ok.mp h
    rw [List.cons_append, scan_close, ih hothers, hcons]
    rfl
  | unclosed here cs cause hbody =>
    rw [scan_unclosed _ hbody] at h
    cases h
  | text here cs text left hbody ih =>
    rw [scan_text _ hbody] at h
    obtain ⟨others, hothers, rfl⟩ := map_eq_ok.mp h
    have hsuffix := (Quoted.suffix_of_body hbody).trans (List.suffix_cons '"' cs)
    have hend := literalEnd_append here ('"' :: cs) left ('\n' :: rest)
    rw [List.cons_append] at hend
    rw [List.cons_append, scan_text _ (Quoted.body_append hbody _), hend, ih hothers, hcons,
      after_literalEnd here hsuffix]
  | atom here c cs hc ih =>
    rw [scan_atom _ hc] at h
    obtain ⟨others, hothers, rfl⟩ := map_eq_ok.mp h
    rw [List.cons_append, scan_atom _ hc, takeWhile_append_ended (by decide),
      dropWhile_append_ended (by decide), ih hothers, hcons, ← Position.after_append,
      List.cons_append, List.takeWhile_append_dropWhile]

end Token

/-! ## Joined forms -/

/-- Tokens that leave no list open make their forms, and what follows makes the rest. -/
theorem assemble_append {tokens : List Token} {stack : List OpenList} {done es : List Expr}
    (h : assemble stack done tokens = .ok es) (more : List Token) :
    assemble stack done (tokens ++ more) = assemble [] es.reverse more := by
  induction tokens generalizing stack done with
  | nil =>
    cases stack with
    | nil =>
      obtain rfl : done.reverse = es := Except.ok.inj h
      rw [List.reverse_reverse]
      rfl
    | cons inner outer => cases h
  | cons token rest ih =>
    rw [List.cons_append]
    cases hlexeme : token.lexeme with
    | openList =>
      rw [assemble_open _ _ _ hlexeme] at h ⊢
      exact ih h
    | closeList =>
      cases stack with
      | nil =>
        rw [assemble_stray _ _ hlexeme] at h
        cases h
      | cons inner outer =>
        rw [assemble_close _ _ _ hlexeme] at h ⊢
        exact ih h
    | text value =>
      rw [assemble_text _ _ _ hlexeme] at h ⊢
      exact ih h
    | atom chars =>
      rw [assemble_atom _ _ _ hlexeme] at h ⊢
      exact ih h

theorem place_after (e : Expr) (stack : List OpenList) (done before : List Expr) :
    place e stack (done ++ before) = ((place e stack done).1, (place e stack done).2 ++ before) := by
  cases stack <;> rfl

/-- Forms that were finished before come first and change nothing else. -/
theorem assemble_after (before : List Expr) (tokens : List Token) :
    ∀ (stack : List OpenList) (done : List Expr), assemble stack (done ++ before) tokens
      = (assemble stack done tokens).map (before.reverse ++ ·) := by
  induction tokens with
  | nil =>
    intro stack done
    cases stack with
    | nil => exact congrArg Except.ok List.reverse_append
    | cons inner outer => rfl
  | cons token rest ih =>
    intro stack done
    cases hlexeme : token.lexeme with
    | openList => rw [assemble_open _ _ _ hlexeme, assemble_open _ _ _ hlexeme, ih]
    | closeList =>
      cases stack with
      | nil =>
        rw [assemble_stray _ _ hlexeme, assemble_stray _ _ hlexeme]
        rfl
      | cons inner outer =>
        rw [assemble_close _ _ _ hlexeme, assemble_close _ _ _ hlexeme, place_after, ih]
    | text value => rw [assemble_text _ _ _ hlexeme, assemble_text _ _ _ hlexeme, place_after, ih]
    | atom chars => rw [assemble_atom _ _ _ hlexeme, assemble_atom _ _ _ hlexeme, place_after, ih]

/-- A text behind one that can be read is read as if it stood alone, only further down. -/
theorem readSource_joined {a : String} {es : List Expr} (h : readSource a = .ok es) (b : String) :
    readSource (a ++ "\n" ++ b)
      = ((readSource b).map (es ++ ·)).mapError (·.down (1 + a.toList.count '\n')) := by
  obtain ⟨tokens, htokens, hassemble⟩ := bind_eq_ok.mp h
  have hjoined : tokenize (a ++ "\n" ++ b) = (((tokenize b).map
      (·.map (·.down (1 + a.toList.count '\n')))).mapError (·.down (1 + a.toList.count '\n'))).map
      (tokens ++ ·) := by
    have hchars : (a ++ "\n" ++ b).toList = a.toList ++ '\n' :: b.toList := by simp
    unfold tokenize
    rw [hchars, Token.scan_joined htokens, Position.next_after_start, Token.scan_down]
  unfold readSource
  rw [hjoined]
  cases tokenize b with
  | error fault => rfl
  | ok others =>
    show assemble [] [] (tokens ++ others.map _) = ((assemble [] [] others).map _).mapError _
    have hmoved := assemble_down (1 + a.toList.count '\n') others [] es.reverse
    have hafter := assemble_after es.reverse others [] []
    rw [List.reverse_reverse] at hafter
    rw [assemble_append hassemble, ← hafter]
    exact hmoved

/-- Texts that can all be read, joined by line feeds, are read as one after the other. -/
theorem readSource_intercalate {texts : List String} {read : List (List Expr)}
    (h : List.Forall₂ (fun text es => readSource text = .ok es) texts read) :
    readSource ("\n".intercalate texts) = .ok read.flatten := by
  induction h with
  | nil =>
    unfold readSource tokenize
    show (Token.scan Position.start [] >>= fun tokens => assemble [] [] tokens) = _
    rw [Token.scan_nil]
    rfl
  | @cons text es texts read htext hrest ih =>
    cases hrest with
    | nil =>
      rw [String.intercalate_singleton, List.flatten_cons, List.flatten_nil, List.append_nil]
      exact htext
    | cons hnext hothers =>
      rw [String.intercalate_cons_cons, readSource_joined htext, ih]
      rfl

/-- **Reading is compositional.** Behind a text that can be read, and a line feed, another text is
read as it is on its own: its expressions come behind those of the first, and if it cannot be read,
neither can the two together, for the same reason, as many lines further down as the first text takes.
So a program of files that can all be read is the program of one text, in which the texts of the
files are joined by line feeds in the order of the paths. -/
theorem reading_is_compositional :
    (∀ a b es, readSource a = .ok es →
      let lines := 1 + a.toList.count '\n'
      (∀ fs, readSource (a ++ "\n" ++ b) = .ok fs ↔ ∃ bs, readSource b = .ok bs ∧ fs = es ++ bs) ∧
      ∀ fault, readSource b = .error fault → readSource (a ++ "\n" ++ b) = .error (fault.down lines) ∧
        (fault.down lines).kind = fault.kind ∧
        (fault.down lines).span? = fault.span?.map (·.down lines)) ∧
    ∀ strict sources forms, Program.Reads sources forms →
      Program.ofSources strict sources
        = Program.ofSource strict ("\n".intercalate (sources.entries.map (·.2))) := by
  constructor
  · intro a b es ha lines
    have hjoined := readSource_joined ha b
    constructor
    · intro fs
      rw [hjoined, mapError_eq_ok, map_eq_ok]
      exact exists_congr fun bs => and_congr_right fun _ => eq_comm
    · intro fault hb
      refine ⟨?_, fault.kind_down, fault.span?_down⟩
      rw [hjoined, hb]
      rfl
  · intro strict sources forms hreads
    rw [hreads.ofSources]
    obtain ⟨files, hfiles, rfl⟩ := hreads
    unfold Program.ofSource
    rw [readSource_intercalate (List.forall₂_map_left_iff.mpr hfiles)]
    rfl

/-- The comment at the end of the first text does not reach the parenthesis in the second, which is
as stray on the second line as it is on the first line of a text of its own. -/
theorem reading_is_compositional_comment :
    readSource "x ; a note" = .ok [.symbol "x"] ∧
      readSource ")" = .error (.strayClose ⟨⟨1, 1⟩, ⟨1, 2⟩⟩) ∧
      readSource ("x ; a note" ++ "\n" ++ ")") = .error (.strayClose ⟨⟨2, 1⟩, ⟨2, 2⟩⟩) := by
  have hfirst : readSource "x ; a note" = .ok [.symbol "x"] := by with_unfolding_all rfl
  have hstray : readSource ")" = .error (.strayClose ⟨⟨1, 1⟩, ⟨1, 2⟩⟩) := by with_unfolding_all rfl
  obtain ⟨hjoined, -⟩ := reading_is_compositional
  obtain ⟨-, hfault⟩ := hjoined "x ; a note" ")" _ hfirst
  exact ⟨hfirst, hstray, (hfault _ hstray).1⟩

end Colloquy
