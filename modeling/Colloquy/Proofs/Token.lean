import Colloquy.Proofs.Action
import Colloquy.Proofs.Text
import Colloquy.Token

/-!
# What characters scan to

Scanning goes on with whatever the text starts with: one equation for each of these (`scan_blank` to
`scan_atom`), and an induction with a case for each (`scan_induction`).

`Lexes cs lexemes` says that scanning `cs`, from wherever, succeeds with tokens of these lexemes. It
is built up from the end of the text: each lemma puts one blank, parenthesis, literal or atom in
front of what is known to scan.

The other way round, every atom that scanning gives is an atom indeed: nonempty, and of characters
that atoms may have (`atomsOf_scan`).
-/

namespace Colloquy

/-- The characters of an atom: at least one, none of them blank or a delimiter. -/
def IsAtom (cs : List Char) : Prop := cs ≠ [] ∧ ∀ c ∈ cs, isAtomChar c = true

namespace Token

/-! ## One token -/

section Step

variable (here : Position) {c : Char} (rest : List Char)

theorem scan_nil : scan here [] = .ok [] := by rw [scan]

theorem scan_blank (hc : isBlank c = true) : scan here (c :: rest) = scan (here.next c) rest := by
  rw [scan]
  rw [if_pos hc]

theorem scan_comment : scan here (';' :: rest)
    = scan ((here.next ';').after (rest.takeWhile (· ≠ '\n'))) (rest.dropWhile (· ≠ '\n')) := by
  rw [scan]
  rw [if_neg (by decide), if_pos rfl]

theorem scan_open : scan here ('(' :: rest)
    = (scan (here.next '(') rest).map (⟨.openList, here, here.next '('⟩ :: ·) := by
  rw [scan]
  rw [if_neg (by decide), if_neg (by decide), if_pos rfl]

theorem scan_close : scan here (')' :: rest)
    = (scan (here.next ')') rest).map (⟨.closeList, here, here.next ')'⟩ :: ·) := by
  rw [scan]
  rw [if_neg (by decide), if_neg (by decide), if_neg (by decide), if_pos rfl]

variable {rest}

theorem scan_unclosed {cause : Quoted.Unclosed} (h : Quoted.body rest = .error cause) :
    scan here ('"' :: rest)
      = .error (.unclosedText ⟨here, here.after ('"' :: rest)⟩ (cause = .inEscape)) := by
  rw [scan]
  rw [if_neg (by decide), if_neg (by decide), if_neg (by decide), if_neg (by decide), if_pos rfl]
  split
  · next found hfound =>
    rw [h] at hfound
    cases hfound
    rfl
  · next hfound =>
    rw [h] at hfound
    cases hfound

/-- Where the literal at the start of a text ends, if this is left of it. -/
def literalEnd (literal left : List Char) : Position :=
  here.after (literal.take (literal.length - left.length))

theorem scan_text {cs left : List Char} (h : Quoted.body rest = .ok (cs, left)) :
    scan here ('"' :: rest) = (scan (literalEnd here ('"' :: rest) left) left).map
      (⟨.text (String.ofList cs), here, literalEnd here ('"' :: rest) left⟩ :: ·) := by
  rw [scan]
  rw [if_neg (by decide), if_neg (by decide), if_neg (by decide), if_neg (by decide), if_pos rfl]
  split
  · next hfound =>
    rw [h] at hfound
    cases hfound
  · next hfound =>
    rw [h] at hfound
    cases hfound
    rfl

theorem scan_atom (hc : isAtomChar c = true) : scan here (c :: rest)
    = (scan (here.after (c :: rest.takeWhile isAtomChar)) (rest.dropWhile isAtomChar)).map
      (⟨.atom (c :: rest.takeWhile isAtomChar), here, here.after (c :: rest.takeWhile isAtomChar)⟩ :: ·) := by
  obtain ⟨hblank, hdelimiter⟩ : isBlank c = false ∧ isDelimiter c = false := by
    simpa [isAtomChar] using hc
  have hnot : ∀ {d}, isDelimiter d = true → c ≠ d := by
    rintro d hd rfl
    rw [hdelimiter] at hd
    cases hd
  rw [scan]
  rw [if_neg (by simp [hblank]), if_neg (hnot rfl), if_neg (hnot rfl), if_neg (hnot rfl),
    if_neg (hnot rfl)]

end Step

/-- Induction along a scan, with a case for everything that a text can start with. -/
@[elab_as_elim]
theorem scan_induction {P : Position → List Char → Prop}
    (nil : ∀ here, P here [])
    (blank : ∀ here c rest, isBlank c = true → P (here.next c) rest → P here (c :: rest))
    (comment : ∀ here rest,
      P ((here.next ';').after (rest.takeWhile (· ≠ '\n'))) (rest.dropWhile (· ≠ '\n')) →
      P here (';' :: rest))
    (openList : ∀ here rest, P (here.next '(') rest → P here ('(' :: rest))
    (closeList : ∀ here rest, P (here.next ')') rest → P here (')' :: rest))
    (unclosed : ∀ here rest cause, Quoted.body rest = .error cause → P here ('"' :: rest))
    (text : ∀ here rest cs left, Quoted.body rest = .ok (cs, left) →
      P (literalEnd here ('"' :: rest) left) left → P here ('"' :: rest))
    (atom : ∀ here c rest, isAtomChar c = true →
      P (here.after (c :: rest.takeWhile isAtomChar)) (rest.dropWhile isAtomChar) →
      P here (c :: rest))
    (here : Position) (cs : List Char) : P here cs := by
  fun_induction scan here cs with
  | case1 here => exact nil here
  | case2 here c rest hblank ih => exact blank here c rest hblank ih
  | case3 here rest line hblank ih => exact comment here rest ih
  | case4 here rest hblank hcomment ih => exact openList here rest ih
  | case5 here rest hblank hcomment hopen ih => exact closeList here rest ih
  | case6 here rest cause hbody => exact unclosed here rest cause hbody
  | case7 here rest cs left hbody => next ih => exact text here rest cs left hbody ih
  | case8 here c rest hblank hcomment hopen hclose hquote =>
    next ih =>
    refine atom here c rest ?_ ih
    simp [isAtomChar, isDelimiter, hblank, hcomment, hopen, hclose, hquote]

/-! ## The lexemes of a text -/

/-- From wherever they are scanned, the characters give tokens of these lexemes. -/
def Lexes (cs : List Char) (lexemes : List Lexeme) : Prop :=
  ∀ here, ∃ tokens, scan here cs = .ok tokens ∧ tokens.map (·.lexeme) = lexemes

theorem lexes_nil : Lexes [] [] := by
  intro here
  exact ⟨[], scan_nil here, rfl⟩

section Rest

variable {rest : List Char} {lexemes : List Lexeme} (h : Lexes rest lexemes)

include h

theorem lexes_blank {c : Char} (hc : isBlank c = true) : Lexes (c :: rest) lexemes := by
  intro here
  rw [scan_blank here rest hc]
  exact h _

/-- A token in front of what is known to scan. -/
theorem lexes_cons {cs : List Char} {lexeme : Lexeme}
    (hcs : ∀ here, ∃ stop, scan here cs = (scan stop rest).map (⟨lexeme, here, stop⟩ :: ·)) :
    Lexes cs (lexeme :: lexemes) := by
  intro here
  obtain ⟨stop, hscan⟩ := hcs here
  obtain ⟨tokens, hrest, hlexemes⟩ := h stop
  refine ⟨⟨lexeme, here, stop⟩ :: tokens, ?_, by rw [List.map_cons, hlexemes]⟩
  rw [hscan, hrest]
  rfl

theorem lexes_open : Lexes ('(' :: rest) (.openList :: lexemes) :=
  lexes_cons h fun here => ⟨_, scan_open here rest⟩

theorem lexes_close : Lexes (')' :: rest) (.closeList :: lexemes) :=
  lexes_cons h fun here => ⟨_, scan_close here rest⟩

/-- A literal, between its quotes. -/
theorem lexes_text (cs : List Char) :
    Lexes ('"' :: Quoted.encode cs ++ '"' :: rest) (.text (String.ofList cs) :: lexemes) :=
  lexes_cons h fun here => ⟨_, scan_text here (Quoted.body_encode cs rest)⟩

/-- An atom, where what follows does not go on with it. -/
theorem lexes_atom {cs : List Char} (hatom : IsAtom cs)
    (hrest : EndsStretch isAtomChar rest) :
    Lexes (cs ++ rest) (.atom cs :: lexemes) := by
  obtain ⟨hne, hchars⟩ := hatom
  obtain ⟨c, tail, rfl⟩ := List.exists_cons_of_ne_nil hne
  obtain ⟨hc, htail⟩ := List.forall_mem_cons.mp hchars
  refine lexes_cons h fun here => ⟨here.after (c :: tail), ?_⟩
  rw [List.cons_append, scan_atom here hc, takeWhile_stretch htail hrest, dropWhile_stretch htail hrest]

end Rest

theorem isAtom_cons {c : Char} (rest : List Char) (hc : isAtomChar c = true) :
    IsAtom (c :: rest.takeWhile isAtomChar) := by
  refine ⟨List.cons_ne_nil _ _, ?_⟩
  intro d hd
  rcases List.mem_cons.mp hd with rfl | hd
  · exact hc
  · exact List.all_eq_true.mp List.all_takeWhile d hd

/-- Every token that is an atom has the characters of one. -/
def AtomsOf (tokens : List Token) : Prop :=
  ∀ token ∈ tokens, ∀ atom, token.lexeme = .atom atom → IsAtom atom

theorem AtomsOf.cons {token : Token} (htoken : ∀ atom, token.lexeme = .atom atom → IsAtom atom)
    {scanned : Except ReadingFault (List Token)} {tokens : List Token}
    (hscanned : scanned.map (token :: ·) = .ok tokens)
    (hrest : ∀ {rest}, scanned = .ok rest → AtomsOf rest) : AtomsOf tokens := by
  obtain ⟨rest, hok, rfl⟩ := map_eq_ok.mp hscanned
  intro other hmem
  rcases List.mem_cons.mp hmem with rfl | hmem
  · exact htoken
  · exact hrest hok other hmem

/-- Every atom that scanning gives is one. -/
theorem atomsOf_scan {here : Position} {cs : List Char} {tokens : List Token}
    (h : scan here cs = .ok tokens) : AtomsOf tokens := by
  induction here, cs using scan_induction generalizing tokens with
  | nil here =>
    rw [scan_nil] at h
    cases h
    intro token hmem
    cases hmem
  | blank here c rest hc ih =>
    rw [scan_blank here rest hc] at h
    exact ih h
  | comment here rest ih =>
    rw [scan_comment] at h
    exact ih h
  | openList here rest ih =>
    rw [scan_open] at h
    exact .cons (fun atom hatom => by cases hatom) h ih
  | closeList here rest ih =>
    rw [scan_close] at h
    exact .cons (fun atom hatom => by cases hatom) h ih
  | unclosed here rest cause hbody =>
    rw [scan_unclosed here hbody] at h
    cases h
  | text here rest cs left hbody ih =>
    rw [scan_text here hbody] at h
    exact .cons (fun atom hatom => by cases hatom) h ih
  | atom here c rest hc ih =>
    rw [scan_atom here hc] at h
    refine .cons (fun atom hatom => ?_) h ih
    cases hatom
    exact isAtom_cons rest hc

end Token

end Colloquy
