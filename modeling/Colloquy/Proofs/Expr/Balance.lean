import Colloquy.Proofs.Expr.Reader
import Colloquy.Proofs.Token.Account
import Mathlib.Data.List.Induction
import Mathlib.Data.List.Infix

/-!
# Balanced parentheses

Whether a text can be read goes by its parentheses alone, once it has tokens: no prefix of these may
close more lists than it opens (`Nested`), and in all as many are closed as are opened (`Balanced`).
What is read then flattens to the tokens again (`Expr.piecesAll`).

The invariant is `Standing`: the tokens read so far are a balanced stretch, and for every list that is
open one more opening parenthesis and a balanced stretch behind it, which the finished forms and the
items of the open lists flatten to. One token keeps it or ends reading. So where reading fails, the
tokens fall apart at the parenthesis that is blamed (`Assembled`): in front of a stray closing one
they are balanced, and behind an unclosed opening one.

Main statement, `reading_accepts_balanced`.
-/

namespace Colloquy

/-! ## Counting parentheses -/

/-- How many of the tokens open a list. -/
def openings (tokens : List Token) : Nat := tokens.countP fun token => token.lexeme = .openList

/-- How many of the tokens close a list. -/
def closings (tokens : List Token) : Nat := tokens.countP fun token => token.lexeme = .closeList

/-- No prefix of the tokens closes more lists than it opens. -/
def Nested (tokens : List Token) : Prop := ∀ front, front <+: tokens → closings front ≤ openings front

/-- The tokens close every list that they open, and no other. -/
structure Balanced (tokens : List Token) : Prop where
  nested : Nested tokens
  totals : openings tokens = closings tokens

instance (tokens : List Token) : Decidable (Nested tokens) :=
  decidable_of_iff (∀ front ∈ tokens.inits, closings front ≤ openings front) (by simp [Nested])

variable {token opening close : Token} {tokens front rest inside chunk : List Token}

@[simp] theorem openings_append (front rest : List Token) :
    openings (front ++ rest) = openings front + openings rest := List.countP_append

@[simp] theorem closings_append (front rest : List Token) :
    closings (front ++ rest) = closings front + closings rest := List.countP_append

theorem openings_singleton (h : token.lexeme = .openList) : openings [token] = 1 := by
  simp [openings, h]

theorem closings_singleton (h : token.lexeme = .closeList) : closings [token] = 1 := by
  simp [closings, h]

/-- A token that does not open a list counts for none. -/
theorem openings_of_ne (h : token.lexeme ≠ .openList) : openings [token] = 0 := by
  simp [openings, h]

theorem closings_of_ne (h : token.lexeme ≠ .closeList) : closings [token] = 0 := by
  simp [closings, h]

namespace Nested

theorem totals_le (h : Nested tokens) : closings tokens ≤ openings tokens :=
  h tokens (List.prefix_refl tokens)

theorem nil : Nested [] := by
  intro front hfront
  rw [List.prefix_nil.mp hfront]
  exact Nat.le_refl _

theorem append (hfront : Nested front) (hrest : Nested rest) : Nested (front ++ rest) := by
  intro other hother
  rcases List.prefix_or_prefix_of_prefix hother (List.prefix_append front rest) with hwithin | hbeyond
  · exact hfront other hwithin
  · obtain ⟨more, rfl⟩ := hbeyond
    have hmore : closings more ≤ openings more :=
      hrest more ((List.prefix_append_right_inj front).mp hother)
    have htotals := hfront.totals_le
    rw [openings_append, closings_append]
    omega

theorem singleton (h : token.lexeme ≠ .closeList) : Nested [token] := by
  intro front hfront
  rcases List.prefix_concat_iff.mp (show front <+: [] ++ [token] from hfront) with rfl | hnil
  · rw [List.nil_append, closings_of_ne h]
    exact Nat.zero_le _
  · exact nil front hnil

theorem of_prefix (h : Nested tokens) (hfront : front <+: tokens) : Nested front :=
  fun other hother => h other (hother.trans hfront)

theorem concat_iff :
    Nested (front ++ [token]) ↔
      Nested front ∧ closings (front ++ [token]) ≤ openings (front ++ [token]) := by
  constructor
  · intro h
    exact ⟨h.of_prefix (List.prefix_append front [token]), h.totals_le⟩
  · rintro ⟨hfront, htotals⟩ other hother
    rcases List.prefix_concat_iff.mp hother with rfl | hwithin
    · exact htotals
    · exact hfront other hwithin

end Nested

namespace Balanced

theorem nil : Balanced [] := ⟨.nil, rfl⟩

theorem append (hfront : Balanced front) (hrest : Balanced rest) : Balanced (front ++ rest) := by
  refine ⟨hfront.nested.append hrest.nested, ?_⟩
  rw [openings_append, closings_append, hfront.totals, hrest.totals]

/-- An atom or a literal is balanced. -/
theorem singleton (hopen : token.lexeme ≠ .openList) (hclose : token.lexeme ≠ .closeList) :
    Balanced [token] :=
  ⟨.singleton hclose, by rw [openings_of_ne hopen, closings_of_ne hclose]⟩

/-- What is balanced stays so between parentheses. -/
theorem enclose (hopen : opening.lexeme = .openList) (hclose : close.lexeme = .closeList)
    (h : Balanced inside) : Balanced (opening :: inside ++ [close]) := by
  have hopened : closings [opening] = 0 := closings_of_ne (by rw [hopen]; simp)
  have hclosed : openings [close] = 0 := openings_of_ne (by rw [hclose]; simp)
  have hfront : Nested ([opening] ++ inside) :=
    (Nested.singleton (by rw [hopen]; simp)).append h.nested
  have htotals :
      openings ([opening] ++ inside ++ [close]) = closings ([opening] ++ inside ++ [close]) := by
    simp only [openings_append, closings_append, openings_singleton hopen, closings_singleton hclose,
      hopened, hclosed, h.totals]
    omega
  exact ⟨Nested.concat_iff.mpr ⟨hfront, Nat.le_of_eq htotals.symm⟩, htotals⟩

/-- A closing parenthesis behind what is balanced is one too many. -/
theorem not_nested_concat (hclose : close.lexeme = .closeList) (h : Balanced front) :
    ¬ Nested (front ++ [close]) := by
  intro hnested
  have hle := hnested.totals_le
  have hclosed : openings [close] = 0 := openings_of_ne (by rw [hclose]; simp)
  rw [openings_append, closings_append, closings_singleton hclose, hclosed, h.totals] at hle
  omega

end Balanced

/-- Where more is closed than opened, the first parenthesis too many stands behind a balanced stretch. -/
theorem exists_balanced_of_not_nested (h : ¬ Nested tokens) :
    ∃ front close rest,
      tokens = front ++ close :: rest ∧ close.lexeme = .closeList ∧ Balanced front := by
  induction tokens using List.reverseRecOn with
  | nil => exact absurd .nil h
  | append_singleton tokens token ih =>
    by_cases htokens : Nested tokens
    · -- the last token is the first one too many
      have hmore : ¬ closings (tokens ++ [token]) ≤ openings (tokens ++ [token]) :=
        fun htotals => h (Nested.concat_iff.mpr ⟨htokens, htotals⟩)
      have hle := htokens.totals_le
      rw [openings_append, closings_append] at hmore
      have hclose : token.lexeme = .closeList := by
        by_contra hother
        rw [closings_of_ne hother] at hmore
        omega
      rw [closings_singleton hclose] at hmore
      exact ⟨tokens, token, [], rfl, hclose, htokens, by omega⟩
    · obtain ⟨front, close, rest, rfl, hclose, hfront⟩ := ih htokens
      exact ⟨front, close, rest ++ [token], by simp, hclose, hfront⟩

/-! ## Tokens of expressions -/

/-- A token without its place, a literal or an atom by the expression that it stands for. -/
inductive Piece
  | openList
  | closeList
  | item (e : Expr)

def Token.piece (token : Token) : Piece :=
  match token.lexeme with
  | .openList => .openList
  | .closeList => .closeList
  | .text value => .item (.text value)
  | .atom chars => .item (classifyAtom chars)

namespace Expr

mutual

/-- An expression flattened: a list is its items between parentheses, anything else is itself. -/
def pieces : Expr → List Piece
  | list items => .openList :: piecesAll items ++ [.closeList]
  | number value => [.item (number value)]
  | text value => [.item (text value)]
  | symbol name => [.item (symbol name)]

/-- Expressions flattened, one after another. -/
def piecesAll : List Expr → List Piece
  | [] => []
  | e :: rest => pieces e ++ piecesAll rest

end

theorem piecesAll_append (es others : List Expr) :
    piecesAll (es ++ others) = piecesAll es ++ piecesAll others := by
  induction es with
  | nil => rfl
  | cons e rest ih => rw [List.cons_append, piecesAll, piecesAll, ih, List.append_assoc]

theorem piecesAll_concat (es : List Expr) (e : Expr) :
    piecesAll (es ++ [e]) = piecesAll es ++ pieces e := by
  rw [piecesAll_append, piecesAll, piecesAll, List.append_nil]

theorem pieces_classifyAtom (chars : List Char) :
    (classifyAtom chars).pieces = [.item (classifyAtom chars)] := by
  unfold classifyAtom
  split <;> rfl

end Expr

open Colloquy.Expr (pieces piecesAll)

/-! ## The lists that are open -/

/-- The tokens read so far, by the lists that are open and the forms that are finished. -/
inductive Standing : List Token → List OpenList → List Expr → Prop
  | outside {tokens : List Token} {done : List Expr} (hbalanced : Balanced tokens)
      (hpieces : piecesAll done.reverse = tokens.map Token.piece) : Standing tokens [] done
  | inside {front inside : List Token} {opening : Token} {items done : List Expr}
      {outer : List OpenList} (houter : Standing front outer done)
      (hopen : opening.lexeme = .openList) (hbalanced : Balanced inside)
      (hpieces : piecesAll items.reverse = inside.map Token.piece) :
      Standing (front ++ opening :: inside) (⟨opening.span, items⟩ :: outer) done

namespace Standing

variable {stack outer : List OpenList} {done : List Expr} {e : Expr}

theorem nested (h : Standing tokens stack done) : Nested tokens := by
  induction h with
  | outside hbalanced _ => exact hbalanced.nested
  | @inside front inside opening _ _ _ _ hopen hbalanced _ ih =>
    have hopening : Nested [opening] := .singleton (by rw [hopen]; simp)
    exact ih.append (hopening.append hbalanced.nested)

/-- An expression is placed behind a balanced stretch that it flattens to. -/
theorem place (h : Standing tokens stack done) (hchunk : Balanced chunk)
    (hpieces : e.pieces = chunk.map Token.piece) :
    Standing (tokens ++ chunk) (place e stack done).1 (place e stack done).2 := by
  cases h with
  | outside hbalanced hdone =>
    refine .outside (hbalanced.append hchunk) ?_
    show piecesAll (e :: done).reverse = _
    rw [List.reverse_cons, Expr.piecesAll_concat, hdone, hpieces, List.map_append]
  | inside houter hopen hbalanced hitems =>
    rw [List.append_assoc, List.cons_append]
    refine .inside houter hopen (hbalanced.append hchunk) ?_
    rw [List.reverse_cons, Expr.piecesAll_concat, hitems, hpieces, List.map_append]

theorem openList (h : Standing tokens stack done) (hopen : token.lexeme = .openList) :
    Standing (tokens ++ [token]) (⟨token.span, []⟩ :: stack) done :=
  .inside h hopen .nil rfl

/-- The innermost list is closed and placed. -/
theorem closeList {inner : OpenList} (h : Standing tokens (inner :: outer) done)
    (hclose : token.lexeme = .closeList) :
    Standing (tokens ++ [token]) (Colloquy.place (.list inner.items.reverse) outer done).1
      (Colloquy.place (.list inner.items.reverse) outer done).2 := by
  cases h with
  | @inside front inside opening items _ _ houter hopen hbalanced hitems =>
    have hpieces : (Expr.list items.reverse).pieces = (opening :: inside ++ [token]).map Token.piece := by
      have hopening : opening.piece = .openList := by simp [Token.piece, hopen]
      have hclosing : token.piece = .closeList := by simp [Token.piece, hclose]
      rw [pieces, hitems, List.map_append, List.map_cons, hopening, List.map_singleton, hclosing]
    rw [List.append_assoc]
    exact houter.place (hbalanced.enclose hopen hclose) hpieces

end Standing

/-! ## Reading the tokens -/

/-- What reading the tokens comes to: the expressions that they flatten from, or the parenthesis
that is blamed. -/
inductive Assembled (tokens : List Token) : Except ReadingFault (List Expr) → Prop
  | balanced {exprs : List Expr} (hbalanced : Balanced tokens)
      (hpieces : piecesAll exprs = tokens.map Token.piece) : Assembled tokens (.ok exprs)
  | stray {front rest : List Token} {close : Token} (htokens : tokens = front ++ close :: rest)
      (hclose : close.lexeme = .closeList) (hfront : Balanced front) :
      Assembled tokens (.error (.strayClose close.span))
  | unclosed {front inside : List Token} {opening : Token}
      (htokens : tokens = front ++ opening :: inside) (hopen : opening.lexeme = .openList)
      (hfront : Nested front) (hinside : Balanced inside) :
      Assembled tokens (.error (.unclosedList opening.span))

theorem Standing.assembled (rest : List Token) : ∀ {tokens : List Token} {stack : List OpenList}
    {done : List Expr}, Standing tokens stack done →
      Assembled (tokens ++ rest) (assemble stack done rest) := by
  induction rest with
  | nil =>
    intro tokens stack done h
    rw [List.append_nil]
    cases h with
    | outside hbalanced hdone => exact .balanced hbalanced hdone
    | inside houter hopen hbalanced _ => exact .unclosed rfl hopen houter.nested hbalanced
  | cons token rest ih =>
    intro tokens stack done h
    have hnext : tokens ++ token :: rest = tokens ++ [token] ++ rest := by simp
    cases hlexeme : token.lexeme with
    | openList =>
      rw [assemble_open _ _ _ hlexeme, hnext]
      exact ih (h.openList hlexeme)
    | closeList =>
      cases stack with
      | nil =>
        rw [assemble_stray _ _ hlexeme]
        cases h with
        | outside hbalanced _ => exact .stray rfl hlexeme hbalanced
      | cons inner outer =>
        rw [assemble_close _ _ _ hlexeme, hnext]
        exact ih (h.closeList hlexeme)
    | text value =>
      have hsingle : Balanced [token] := .singleton (by simp [hlexeme]) (by simp [hlexeme])
      rw [assemble_text _ _ _ hlexeme, hnext]
      exact ih (h.place hsingle (by simp [pieces, Token.piece, hlexeme]))
    | atom chars =>
      have hsingle : Balanced [token] := .singleton (by simp [hlexeme]) (by simp [hlexeme])
      rw [assemble_atom _ _ _ hlexeme, hnext]
      exact ih (h.place hsingle (by simp [Expr.pieces_classifyAtom, Token.piece, hlexeme]))

/-! ## The parenthesis that is blamed -/

/-- The first token that closes a list where no more lists are open. -/
def FirstStray (tokens : List Token) (token : Token) : Prop :=
  ∃ front rest, tokens = front ++ token :: rest ∧ token.lexeme = .closeList ∧ Nested front ∧
    ¬ Nested (front ++ [token])

/-- Among the tokens behind an opening parenthesis is the one that closes its list. -/
def Closed (behind : List Token) : Prop :=
  ∃ inside close rest, behind = inside ++ close :: rest ∧ close.lexeme = .closeList ∧ Balanced inside

/-- The last token that opens a list which is never closed. -/
def LastUnclosed (tokens : List Token) (token : Token) : Prop :=
  ∃ front rest, tokens = front ++ token :: rest ∧ token.lexeme = .openList ∧ ¬ Closed rest ∧
    ∀ between opening behind, rest = between ++ opening :: behind → opening.lexeme = .openList →
      Closed behind

/-- The parentheses are blamed at the place of a token. -/
def Blames (answer : Except ReadingFault (List Expr)) (token : Token) : Prop :=
  ∃ fault, answer = .error fault ∧ fault.kind = .unbalancedParentheses ∧ fault.span? = some token.span

/-- In what is nested no list is closed that was opened in front of it. -/
theorem Nested.not_closed (h : Nested tokens) : ¬ Closed tokens := by
  rintro ⟨inside, close, rest, rfl, hclose, hinside⟩
  refine hinside.not_nested_concat hclose (h.of_prefix ?_)
  rw [show inside ++ close :: rest = inside ++ [close] ++ rest by simp]
  exact List.prefix_append _ rest

/-- In what is balanced every list that is opened is closed. -/
theorem Balanced.closed (h : Balanced tokens) (htokens : tokens = front ++ opening :: rest)
    (hopen : opening.lexeme = .openList) : Closed rest := by
  refine exists_balanced_of_not_nested fun hrest => ?_
  have hfront : closings front ≤ openings front :=
    h.nested front (by rw [htokens]; exact List.prefix_append _ _)
  have hle := hrest.totals_le
  have htotals := h.totals
  have hopening : closings [opening] = 0 := closings_of_ne (by rw [hopen]; simp)
  rw [htokens, show front ++ opening :: rest = front ++ [opening] ++ rest by simp] at htotals
  simp only [openings_append, closings_append, openings_singleton hopen, hopening] at htotals
  omega

namespace Assembled

variable {answer : Except ReadingFault (List Expr)} {exprs : List Expr} {fault : ReadingFault}

theorem isOk_iff (h : Assembled tokens answer) : (∃ exprs, answer = .ok exprs) ↔ Balanced tokens := by
  constructor
  · rintro ⟨exprs, rfl⟩
    cases h with
    | balanced hbalanced _ => exact hbalanced
  · intro hbalanced
    cases h with
    | balanced => exact ⟨_, rfl⟩
    | stray htokens hclose hfront =>
      subst htokens
      exact absurd ⟨_, _, _, rfl, hclose, hfront⟩ hbalanced.nested.not_closed
    | unclosed htokens hopen _ hinside =>
      exact absurd (hbalanced.closed htokens hopen) hinside.nested.not_closed

theorem pieces_eq (h : Assembled tokens (.ok exprs)) : piecesAll exprs = tokens.map Token.piece := by
  cases h with
  | balanced _ hpieces => exact hpieces

theorem blames_stray (h : Assembled tokens answer) (hnested : ¬ Nested tokens) :
    ∃ token, FirstStray tokens token ∧ Blames answer token := by
  cases h with
  | balanced hbalanced _ => exact absurd hbalanced.nested hnested
  | @stray front rest close htokens hclose hfront =>
    exact ⟨close, ⟨front, rest, htokens, hclose, hfront.nested, hfront.not_nested_concat hclose⟩,
      _, rfl, rfl, rfl⟩
  | @unclosed front inside opening htokens hopen hfront hinside =>
    have hopening : Nested [opening] := .singleton (by rw [hopen]; simp)
    subst htokens
    exact absurd (hfront.append (hopening.append hinside.nested)) hnested

theorem blames_unclosed (h : Assembled tokens answer) (hnested : Nested tokens)
    (htotals : openings tokens ≠ closings tokens) :
    ∃ token, LastUnclosed tokens token ∧ Blames answer token := by
  cases h with
  | balanced hbalanced _ => exact absurd hbalanced.totals htotals
  | stray htokens hclose hfront =>
    subst htokens
    exact absurd ⟨_, _, _, rfl, hclose, hfront⟩ hnested.not_closed
  | @unclosed front inside opening htokens hopen hfront hinside =>
    refine ⟨opening, ⟨front, inside, htokens, hopen, hinside.nested.not_closed, ?_⟩,
      _, rfl, rfl, rfl⟩
    intro between other behind hrest hother
    exact hinside.closed hrest hother

end Assembled

/-- **Reading accepts just the balanced texts.** A text that has no tokens is refused for its unclosed
literal, whatever its parentheses are. Any other text can be read exactly when its tokens are
balanced, and what is read flattens to the tokens. If some prefix closes more lists than it opens, the
first parenthesis that does so is blamed; if none does but a list stays open, it is the last
parenthesis that opens a list which nothing closes. -/
theorem reading_accepts_balanced (source : String) :
    (∀ fault, tokenize source = .error fault →
      readSource source = .error fault ∧ fault.kind = .unterminatedString) ∧
    ∀ tokens, tokenize source = .ok tokens →
      ((∃ exprs, readSource source = .ok exprs) ↔ Balanced tokens) ∧
      (∀ exprs, readSource source = .ok exprs → piecesAll exprs = tokens.map Token.piece) ∧
      (¬ Nested tokens → ∃ token, FirstStray tokens token ∧ Blames (readSource source) token) ∧
      (Nested tokens → openings tokens ≠ closings tokens →
        ∃ token, LastUnclosed tokens token ∧ Blames (readSource source) token) := by
  constructor
  · intro fault htokens
    have haccounts := Token.accounts_scan Position.start source.toList [] rfl (.inl endsStretch_nil)
    have hscan : Token.scan Position.start source.toList = .error fault := htokens
    rw [hscan] at haccounts
    obtain ⟨-, -, -, -, -, -, hkind, -⟩ := haccounts
    refine ⟨?_, hkind⟩
    unfold readSource
    rw [htokens]
    rfl
  · intro tokens htokens
    have hread : readSource source = assemble [] [] tokens := by
      unfold readSource
      rw [htokens]
      rfl
    have hassembled : Assembled ([] ++ tokens) (assemble [] [] tokens) :=
      Standing.assembled tokens (.outside .nil rfl)
    rw [List.nil_append, ← hread] at hassembled
    refine ⟨hassembled.isOk_iff, ?_, hassembled.blames_stray, hassembled.blames_unclosed⟩
    intro exprs hexprs
    rw [hexprs] at hassembled
    exact hassembled.pieces_eq

/-- A literal that is not closed, a list in a list, a parenthesis too many in front of one that stays
open, and two lists left open around one that is closed. -/
theorem reading_accepts_balanced_samples :
    (∃ fault, tokenize "((\"a" = .error fault ∧ readSource "((\"a" = .error fault) ∧
    (∃ tokens exprs, tokenize "((a)\"b\")" = .ok tokens ∧ Balanced tokens ∧
      readSource "((a)\"b\")" = .ok exprs ∧ piecesAll exprs = tokens.map Token.piece) ∧
    (∃ tokens token, tokenize "(a)) (" = .ok tokens ∧ ¬ Nested tokens ∧ FirstStray tokens token ∧
      Blames (readSource "(a)) (") token ∧ token.span.start = ⟨1, 4⟩) ∧
    ∃ tokens token, tokenize "(a (b) (c" = .ok tokens ∧ Nested tokens ∧ LastUnclosed tokens token ∧
      Blames (readSource "(a (b) (c") token ∧ token.span.start = ⟨1, 8⟩ := by
  refine ⟨?_, ?_, ?_, ?_⟩
  · obtain ⟨hunclosed, -⟩ := reading_accepts_balanced "((\"a"
    have htokens : tokenize "((\"a" = .error (.unclosedText ⟨⟨1, 3⟩, ⟨1, 5⟩⟩ false) := by
      with_unfolding_all rfl
    exact ⟨_, htokens, (hunclosed _ htokens).1⟩
  · obtain ⟨-, hread⟩ := reading_accepts_balanced "((a)\"b\")"
    have hexprs : readSource "((a)\"b\")" = .ok [.list [.list [.symbol "a"], .text "b"]] := by
      with_unfolding_all rfl
    have htokens : tokenize "((a)\"b\")" = .ok [⟨.openList, ⟨1, 1⟩, ⟨1, 2⟩⟩,
        ⟨.openList, ⟨1, 2⟩, ⟨1, 3⟩⟩, ⟨.atom ['a'], ⟨1, 3⟩, ⟨1, 4⟩⟩, ⟨.closeList, ⟨1, 4⟩, ⟨1, 5⟩⟩,
        ⟨.text "b", ⟨1, 5⟩, ⟨1, 8⟩⟩, ⟨.closeList, ⟨1, 8⟩, ⟨1, 9⟩⟩] := by
      with_unfolding_all rfl
    obtain ⟨hbalanced, hpieces, -, -⟩ := hread _ htokens
    exact ⟨_, _, htokens, hbalanced.mp ⟨_, hexprs⟩, hexprs, hpieces _ hexprs⟩
  · obtain ⟨-, hread⟩ := reading_accepts_balanced "(a)) ("
    have htokens : tokenize "(a)) (" = .ok [⟨.openList, ⟨1, 1⟩, ⟨1, 2⟩⟩,
        ⟨.atom ['a'], ⟨1, 2⟩, ⟨1, 3⟩⟩, ⟨.closeList, ⟨1, 3⟩, ⟨1, 4⟩⟩,
        ⟨.closeList, ⟨1, 4⟩, ⟨1, 5⟩⟩, ⟨.openList, ⟨1, 6⟩, ⟨1, 7⟩⟩] := by
      with_unfolding_all rfl
    obtain ⟨-, -, hstray, -⟩ := hread _ htokens
    obtain ⟨token, hfirst, hblames⟩ := hstray (by decide)
    refine ⟨_, token, htokens, by decide, hfirst, hblames, ?_⟩
    obtain ⟨fault, hfault, -, hspan⟩ := hblames
    have hstray : readSource "(a)) (" = .error (.strayClose ⟨⟨1, 4⟩, ⟨1, 5⟩⟩) := by
      with_unfolding_all rfl
    rw [hstray] at hfault
    cases hfault
    rw [← Option.some.inj hspan]
  · obtain ⟨-, hread⟩ := reading_accepts_balanced "(a (b) (c"
    have htokens : tokenize "(a (b) (c" = .ok [⟨.openList, ⟨1, 1⟩, ⟨1, 2⟩⟩,
        ⟨.atom ['a'], ⟨1, 2⟩, ⟨1, 3⟩⟩,
        ⟨.openList, ⟨1, 4⟩, ⟨1, 5⟩⟩, ⟨.atom ['b'], ⟨1, 5⟩, ⟨1, 6⟩⟩, ⟨.closeList, ⟨1, 6⟩, ⟨1, 7⟩⟩,
        ⟨.openList, ⟨1, 8⟩, ⟨1, 9⟩⟩, ⟨.atom ['c'], ⟨1, 9⟩, ⟨1, 10⟩⟩] := by
      with_unfolding_all rfl
    obtain ⟨-, -, -, hopen⟩ := hread _ htokens
    obtain ⟨token, hlast, hblames⟩ := hopen (by decide) (by decide)
    refine ⟨_, token, htokens, by decide, hlast, hblames, ?_⟩
    obtain ⟨fault, hfault, -, hspan⟩ := hblames
    have hopen : readSource "(a (b) (c" = .error (.unclosedList ⟨⟨1, 8⟩, ⟨1, 9⟩⟩) := by
      with_unfolding_all rfl
    rw [hopen] at hfault
    cases hfault
    rw [← Option.some.inj hspan]

end Colloquy
