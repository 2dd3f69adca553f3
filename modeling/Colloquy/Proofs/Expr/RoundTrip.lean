import Colloquy.Expr.Printer
import Colloquy.Proofs.Expr.Reader
import Colloquy.Proofs.Number.Plain
import Colloquy.Proofs.Token

/-!
# Reading what was printed

The printed form of an expression scans to the lexemes of its atoms and lists (`lexes_chars`), and
these assemble to the expression again, atom by atom (`assemble_lexemes`). Reading therefore gives
back every expression with its atoms read anew (`readSource_printProgram`). A text comes out as it
was, and so do a symbol that is no numeral and a finite number (`Number.readsBack`). An infinite
number is printed by its name, which is read as a symbol.

Main statements: what was read from a text is read again from its printed form just when none of its
numbers is infinite (`print_reads_back_iff`), and a list of expressions that need not have been read
is read back just when no number is infinite and every symbol is spelled like one
(`printed_program_reads_back_iff`).
-/

namespace Colloquy

namespace Expr

mutual

/-- The atoms of an expression, from left to right. -/
def atoms : Expr → List Expr
  | list items => atomsAll items
  | e => [e]

/-- `atoms`, item by item. -/
def atomsAll : List Expr → List Expr
  | [] => []
  | item :: rest => atoms item ++ atomsAll rest

end

mutual

/-- The lexemes of the printed form. -/
def lexemes : Expr → List Lexeme
  | number value => [.atom (Number.text value).toList]
  | text value => [.text value]
  | symbol name => [.atom name.toList]
  | list items => .openList :: lexemesAll items ++ [.closeList]

/-- `lexemes`, item by item. -/
def lexemesAll : List Expr → List Lexeme
  | [] => []
  | item :: rest => lexemes item ++ lexemesAll rest

end

mutual

/-- The expression with the printed form of every number and symbol read as an atom. -/
def reread : Expr → Expr
  | number value => classifyAtom (Number.text value).toList
  | text value => text value
  | symbol name => classifyAtom name.toList
  | list items => list (rereadAll items)

/-- `reread`, item by item. -/
def rereadAll : List Expr → List Expr
  | [] => []
  | item :: rest => reread item :: rereadAll rest

end

/-- Every symbol of some atoms stands for an atom of a text. -/
def Printable (atoms : List Expr) : Prop := ∀ name, .symbol name ∈ atoms → IsAtom name.toList

end Expr

/-! ## From characters to lexemes -/

theorem isAtomChar_of_isDigit {c : Char} (h : Decimal.isDigit c = true) : isAtomChar c = true := by
  have hrange : 48 ≤ c.toNat ∧ c.toNat ≤ 57 := by
    simpa [Decimal.isDigit, Char.le_def, UInt32.le_iff_toNat_le] using h
  have hblank : isBlank c = false := by
    simp [isBlank, inRanges, blankRanges]
    omega
  have hother : ∀ d : Char, (d.toNat < 48 ∨ 57 < d.toNat) → c ≠ d := by
    rintro d hd rfl
    omega
  have hdelimiter : isDelimiter c = false := by
    simp [isDelimiter, hother '(' (by decide), hother ')' (by decide), hother '"' (by decide),
      hother ';' (by decide)]
  rw [isAtomChar, hblank, hdelimiter]
  rfl

/-- A number that is not finite has a name for its text, which is no numeral. -/
theorem Number.text_of_infinite {x : Float} (h : Binary64.isFinite x ≠ true) :
    Number.text x = "inf" ∨ Number.text x = "-inf" ∨ Number.text x = "NaN" := by
  unfold Number.text Layout.write
  rw [if_neg h]
  split
  · split
    · exact Or.inr (Or.inl rfl)
    · exact Or.inl rfl
  · exact Or.inr (Or.inr rfl)

/-- The plain text of any number is an atom. -/
theorem Number.isAtom_text (x : Float) : IsAtom (Number.text x).toList := by
  by_cases hfinite : Binary64.isFinite x = true
  · obtain ⟨hne, hchars⟩ := Number.text_chars hfinite
    refine ⟨hne, fun c hc => ?_⟩
    rcases hchars c hc with hdigit | rfl | rfl
    · exact isAtomChar_of_isDigit hdigit
    · rfl
    · rfl
  · rcases Number.text_of_infinite hfinite with h | h | h
    · rw [h]
      exact ⟨by decide, List.all_eq_true.mp (by decide)⟩
    · rw [h]
      exact ⟨by decide, List.all_eq_true.mp (by decide)⟩
    · rw [h]
      exact ⟨by decide, List.all_eq_true.mp (by decide)⟩

/-- The plain text of a number is read as the number just when that is finite. -/
theorem classifyAtom_text (x : Float) :
    classifyAtom (Number.text x).toList = .number x ↔ Binary64.isFinite x = true := by
  constructor
  · intro h
    by_contra hinfinite
    rcases Number.text_of_infinite hinfinite with hname | hname | hname
    · rw [hname] at h
      cases h
    · rw [hname] at h
      cases h
    · rw [hname] at h
      cases h
  · intro hfinite
    obtain ⟨d, hd, hvalue⟩ := Number.readsBack hfinite
    unfold classifyAtom
    rw [hd, ← hvalue]

namespace Expr

open Token (Lexes lexes_blank lexes_open lexes_close lexes_text lexes_atom)

mutual

theorem lexes_chars : ∀ (e : Expr), Printable e.atoms → ∀ {rest : List Char} {ls : List Lexeme},
    EndsStretch isAtomChar rest → Lexes rest ls → Lexes (e.chars ++ rest) (e.lexemes ++ ls)
  | .number value, _, rest, ls, hrest, h => lexes_atom h (Number.isAtom_text value) hrest
  | .text value, _, rest, ls, hrest, h => by
    have htext := lexes_text h value.toList
    rw [String.ofList_toList] at htext
    simpa [chars, lexemes] using htext
  | .symbol name, hprintable, rest, ls, hrest, h =>
    lexes_atom h (hprintable name (List.mem_singleton_self _)) hrest
  | .list items, hprintable, rest, ls, hrest, h => by
    have hclose : EndsStretch isAtomChar (')' :: rest) := rfl
    have hitems := lexes_itemsChars items hprintable hclose (lexes_close h)
    have hlist := lexes_open hitems
    simpa [chars, lexemes] using hlist

theorem lexes_itemsChars : ∀ (items : List Expr), Printable (atomsAll items) →
    ∀ {rest : List Char} {ls : List Lexeme}, EndsStretch isAtomChar rest → Lexes rest ls →
      Lexes (itemsChars items ++ rest) (lexemesAll items ++ ls)
  | [], _, rest, ls, hrest, h => h
  | [item], hprintable, rest, ls, hrest, h => by
    have hitem := lexes_chars item (fun name hname => hprintable name (by simpa [atomsAll] using hname))
      hrest h
    simpa [itemsChars, lexemesAll] using hitem
  | item :: next :: others, hprintable, rest, ls, hrest, h => by
    have hothers := lexes_itemsChars (next :: others)
      (fun name hname => hprintable name (List.mem_append_right _ hname)) hrest h
    have hblank := lexes_blank hothers (c := ' ') (by decide)
    have hitem := lexes_chars item
      (fun name hname => hprintable name (List.mem_append_left _ hname)) (by rfl) hblank
    simpa [itemsChars, lexemesAll] using hitem

end

theorem lexes_programChars : ∀ (forms : List Expr), Printable (atomsAll forms) →
    Lexes (programChars forms) (lexemesAll forms)
  | [], _ => Token.lexes_nil
  | [form], hprintable => by
    have hform := lexes_chars form (fun name hname => hprintable name (by simpa [atomsAll] using hname))
      endsStretch_nil Token.lexes_nil
    simpa [programChars, lexemesAll] using hform
  | form :: next :: others, hprintable => by
    have hothers := lexes_programChars (next :: others)
      (fun name hname => hprintable name (List.mem_append_right _ hname))
    have hblank := lexes_blank hothers (c := '\n') (by decide)
    have hform := lexes_chars form
      (fun name hname => hprintable name (List.mem_append_left _ hname)) (by rfl) hblank
    simpa [programChars, lexemesAll] using hform

end Expr

/-! ## From lexemes to expressions -/

/-- Adds expressions in turn. -/
def placeAll : List Expr → List OpenList → List Expr → List OpenList × List Expr
  | [], stack, done => (stack, done)
  | e :: rest, stack, done => placeAll rest (place e stack done).1 (place e stack done).2

theorem placeAll_inner (es : List Expr) : ∀ (inner : OpenList) (outer : List OpenList)
    (done : List Expr), placeAll es (inner :: outer) done
      = ({ inner with items := es.reverse ++ inner.items } :: outer, done) := by
  induction es with
  | nil => intro inner outer done; rfl
  | cons e rest ih =>
    intro inner outer done
    show placeAll rest ({ inner with items := e :: inner.items } :: outer) done = _
    rw [ih]
    simp

theorem placeAll_outer (es : List Expr) : ∀ done, placeAll es [] done = ([], es.reverse ++ done) := by
  induction es with
  | nil => intro done; rfl
  | cons e rest ih =>
    intro done
    show placeAll rest [] (e :: done) = _
    rw [ih]
    simp

namespace Expr

mutual

/-- Tokens with the lexemes of an expression add it, read anew. -/
theorem assemble_lexemes : ∀ (e : Expr) {tokens : List Token},
    tokens.map (·.lexeme) = e.lexemes → ∀ rest stack done,
      assemble stack done (tokens ++ rest)
        = assemble (place e.reread stack done).1 (place e.reread stack done).2 rest
  | .number value, tokens, h, rest, stack, done => by
    obtain ⟨token, rfl, htoken⟩ := List.map_eq_singleton_iff.mp h
    exact assemble_atom stack done rest htoken
  | .text value, tokens, h, rest, stack, done => by
    obtain ⟨token, rfl, htoken⟩ := List.map_eq_singleton_iff.mp h
    exact assemble_text stack done rest htoken
  | .symbol name, tokens, h, rest, stack, done => by
    obtain ⟨token, rfl, htoken⟩ := List.map_eq_singleton_iff.mp h
    exact assemble_atom stack done rest htoken
  | .list items, tokens, h, rest, stack, done => by
    obtain ⟨first, inside, rfl, hfirst, hinside⟩ := List.map_eq_cons_iff.mp h
    obtain ⟨middle, last, rfl, hmiddle, hlast⟩ := List.map_eq_append_iff.mp hinside
    obtain ⟨token, rfl, htoken⟩ := List.map_eq_singleton_iff.mp hlast
    have hitems := assemble_lexemesAll items hmiddle (token :: rest) (⟨first.span, []⟩ :: stack) done
    rw [placeAll_inner] at hitems
    rw [List.cons_append, List.append_assoc, assemble_open _ _ _ hfirst, List.singleton_append, hitems,
      assemble_close _ _ _ htoken, List.append_nil, List.reverse_reverse]
    rfl

theorem assemble_lexemesAll : ∀ (items : List Expr) {tokens : List Token},
    tokens.map (·.lexeme) = lexemesAll items → ∀ rest stack done,
      assemble stack done (tokens ++ rest)
        = assemble (placeAll (rereadAll items) stack done).1 (placeAll (rereadAll items) stack done).2
          rest
  | [], tokens, h, rest, stack, done => by
    obtain rfl := List.map_eq_nil_iff.mp h
    rfl
  | item :: others, tokens, h, rest, stack, done => by
    obtain ⟨front, back, rfl, hfront, hback⟩ := List.map_eq_append_iff.mp h
    rw [List.append_assoc, assemble_lexemes item hfront, assemble_lexemesAll others hback]
    rfl

end

/-- **Reading what was printed** gives every expression with its atoms read anew. -/
theorem readSource_printProgram {forms : List Expr} (h : Printable (atomsAll forms)) :
    readSource (printProgram forms) = .ok (rereadAll forms) := by
  obtain ⟨tokens, hscan, hlexemes⟩ := lexes_programChars forms h Position.start
  have hassemble := assemble_lexemesAll forms hlexemes [] [] []
  rw [List.append_nil, placeAll_outer] at hassemble
  unfold readSource tokenize printProgram
  rw [String.toList_ofList, hscan]
  refine hassemble.trans ?_
  simp [assemble]

/-! ## What reading gives -/

/-- A name that is read as a symbol: an atom, and no numeral. -/
def IsSymbol (name : String) : Prop :=
  IsAtom name.toList ∧ Decimal.ofChars? name.toList = none

/-- Every symbol of some atoms is read as one. -/
def Legible (atoms : List Expr) : Prop := ∀ name, .symbol name ∈ atoms → IsSymbol name

theorem Legible.printable {atoms : List Expr} (h : Legible atoms) : Printable atoms :=
  fun name hname => (h name hname).1

theorem classifyAtom_symbol {name : String} (h : IsSymbol name) :
    classifyAtom name.toList = .symbol name := by
  unfold classifyAtom
  rw [h.2]
  simp

theorem legible_classifyAtom {chars : List Char} (h : IsAtom chars) :
    Legible (classifyAtom chars).atoms := by
  unfold classifyAtom
  intro name hname
  split at hname
  · cases List.mem_singleton.mp hname
  · next hnumeral =>
    cases List.mem_singleton.mp hname
    exact ⟨by rw [String.toList_ofList]; exact h, by rw [String.toList_ofList]; exact hnumeral⟩

theorem mem_atomsAll {a : Expr} {es : List Expr} : a ∈ atomsAll es ↔ ∃ e ∈ es, a ∈ e.atoms := by
  induction es with
  | nil => simp [atomsAll]
  | cons e rest ih =>
    unfold atomsAll
    rw [List.mem_append, ih]
    simp

theorem legible_atomsAll {es : List Expr} :
    Legible (atomsAll es) ↔ ∀ e ∈ es, Legible e.atoms := by
  constructor
  · intro h e he name hname
    exact h name (mem_atomsAll.mpr ⟨e, he, hname⟩)
  · intro h name hname
    obtain ⟨e, he, hname⟩ := mem_atomsAll.mp hname
    exact h e he name hname

/-- What lists are open and what forms are finished, all of it legible. -/
def LegibleSoFar (stack : List OpenList) (done : List Expr) : Prop :=
  (∀ open' ∈ stack, ∀ e ∈ open'.items, Legible e.atoms) ∧ ∀ e ∈ done, Legible e.atoms

theorem LegibleSoFar.place {stack : List OpenList} {done : List Expr} {e : Expr}
    (h : LegibleSoFar stack done) (he : Legible e.atoms) :
    LegibleSoFar (place e stack done).1 (place e stack done).2 := by
  obtain ⟨hstack, hdone⟩ := h
  cases stack with
  | nil => exact ⟨hstack, List.forall_mem_cons.mpr ⟨he, hdone⟩⟩
  | cons inner outer =>
    obtain ⟨hinner, houter⟩ := List.forall_mem_cons.mp hstack
    exact ⟨List.forall_mem_cons.mpr ⟨List.forall_mem_cons.mpr ⟨he, hinner⟩, houter⟩, hdone⟩

theorem legible_assemble : ∀ (tokens : List Token) {stack : List OpenList} {done es : List Expr},
    Token.AtomsOf tokens → LegibleSoFar stack done → assemble stack done tokens = .ok es →
      ∀ e ∈ es, Legible e.atoms
  | [], stack, done, es, _, hsofar, h => by
    cases stack with
    | nil =>
      obtain rfl : done.reverse = es := Except.ok.inj h
      intro e he
      exact hsofar.2 e (List.mem_reverse.mp he)
    | cons inner outer => cases h
  | token :: rest, stack, done, es, hatoms, hsofar, h => by
    obtain ⟨htoken, hrest⟩ := List.forall_mem_cons.mp hatoms
    cases hlexeme : token.lexeme with
    | openList =>
      rw [assemble_open _ _ _ hlexeme] at h
      exact legible_assemble rest hrest ⟨List.forall_mem_cons.mpr ⟨by simp, hsofar.1⟩, hsofar.2⟩ h
    | closeList =>
      cases stack with
      | nil => simp [assemble, hlexeme] at h
      | cons inner outer =>
        rw [assemble_close _ _ _ hlexeme] at h
        obtain ⟨hinner, houter⟩ := List.forall_mem_cons.mp hsofar.1
        refine legible_assemble rest hrest (LegibleSoFar.place ⟨houter, hsofar.2⟩ ?_) h
        exact legible_atomsAll.mpr fun e he => hinner e (List.mem_reverse.mp he)
    | text value =>
      rw [assemble_text _ _ _ hlexeme] at h
      refine legible_assemble rest hrest (hsofar.place fun name hname => ?_) h
      cases List.mem_singleton.mp hname
    | atom chars =>
      rw [assemble_atom _ _ _ hlexeme] at h
      exact legible_assemble rest hrest (hsofar.place (legible_classifyAtom (htoken chars hlexeme))) h

/-- What was read from a text is legible. -/
theorem legible_of_read {source : String} {es : List Expr} (h : readSource source = .ok es) :
    Legible (atomsAll es) := by
  obtain ⟨tokens, htokens, hassemble⟩ := bind_eq_ok.mp h
  exact legible_atomsAll.mpr
    (legible_assemble tokens (Token.atomsOf_scan htokens) ⟨by simp, by simp⟩ hassemble)

/-! ## Reading again -/

mutual

/-- A legible expression is read as it is just when its numbers are finite. -/
theorem reread_eq_self_iff : ∀ (e : Expr), Legible e.atoms →
    (e.reread = e ↔ ∀ x, .number x ∈ e.atoms → Binary64.isFinite x = true)
  | .number value, _ => by
    show classifyAtom (Number.text value).toList = .number value ↔ _
    rw [classifyAtom_text]
    simp [atoms]
  | .text value, _ => by simp [reread, atoms]
  | .symbol name, h => by
    show classifyAtom name.toList = .symbol name ↔ _
    simp [classifyAtom_symbol (h name (List.mem_singleton_self _)), atoms]
  | .list items, h => by
    show Expr.list (rereadAll items) = .list items ↔ _
    rw [Expr.list.injEq]
    exact rereadAll_eq_self_iff items h

theorem rereadAll_eq_self_iff : ∀ (es : List Expr), Legible (atomsAll es) →
    (rereadAll es = es ↔ ∀ x, .number x ∈ atomsAll es → Binary64.isFinite x = true)
  | [], _ => by simp [rereadAll, atomsAll]
  | e :: rest, h => by
    have hfirst := reread_eq_self_iff e fun name hname => h name (List.mem_append_left _ hname)
    have hrest := rereadAll_eq_self_iff rest fun name hname => h name (List.mem_append_right _ hname)
    unfold rereadAll atomsAll
    rw [List.cons.injEq, hfirst, hrest]
    simp [List.mem_append, or_imp, forall_and]

end

/-- **Printing can be read back** but for infinite numbers: of what was read from a text, the printed
form is read as the same expressions just when every number is finite. -/
theorem print_reads_back_iff {source : String} {es : List Expr} (h : readSource source = .ok es) :
    readSource (printProgram es) = .ok es
      ↔ ∀ e ∈ es, ∀ x, .number x ∈ e.atoms → Binary64.isFinite x = true := by
  have hlegible := legible_of_read h
  rw [readSource_printProgram hlegible.printable, Except.ok.injEq, rereadAll_eq_self_iff es hlegible]
  constructor
  · intro hfinite e he x hx
    exact hfinite x (mem_atomsAll.mpr ⟨e, he, hx⟩)
  · intro hfinite x hx
    obtain ⟨e, he, hx⟩ := mem_atomsAll.mp hx
    exact hfinite e he x hx

theorem classifyAtom_of_numeral {chars : List Char} {d : Decimal}
    (h : Decimal.ofChars? chars = some d) : classifyAtom chars = .number d.toFloat := by
  unfold classifyAtom
  rw [h]

theorem readSource_overflow :
    readSource "1e999" = .ok [.number (Binary64.toFloat false Binary64.infinity)] := by
  have htokens : tokenize "1e999" = .ok [⟨.atom ['1', 'e', '9', '9', '9'], ⟨1, 1⟩, ⟨1, 6⟩⟩] := by with_unfolding_all rfl
  have hnumeral : Decimal.ofChars? ['1', 'e', '9', '9', '9'] = some ⟨false, 1, 999⟩ := by decide
  have hvalue : Decimal.toFloat ⟨false, 1, 999⟩ = Binary64.toFloat false Binary64.infinity := rfl
  rw [readSource, htokens, ← hvalue, ← classifyAtom_of_numeral hnumeral]
  rfl

/-- A numeral beyond the range of doubles is read as an infinity, whose name is read as a symbol. -/
theorem not_reads_back_of_overflow :
    ¬ ∀ source es, readSource source = .ok es → readSource (printProgram es) = .ok es := by
  intro hclaim
  have hlegible := legible_of_read readSource_overflow
  have hagain := hclaim _ _ readSource_overflow
  rw [readSource_printProgram hlegible.printable, Except.ok.injEq,
    rereadAll_eq_self_iff _ hlegible] at hagain
  have hfinite := hagain _ (List.mem_singleton_self _)
  rw [Binary64.isFinite_toFloat (Nat.le_refl _)] at hfinite
  exact Nat.lt_irrefl _ (of_decide_eq_true hfinite)

/-- A tenth is read back from its printed form. -/
theorem tenth_reads_back :
    ∃ es, readSource "(x 0.1)" = .ok es ∧ readSource (printProgram es) = .ok es := by
  have htokens : tokenize "(x 0.1)" = .ok [⟨.openList, ⟨1, 1⟩, ⟨1, 2⟩⟩, ⟨.atom ['x'], ⟨1, 2⟩, ⟨1, 3⟩⟩,
      ⟨.atom ['0', '.', '1'], ⟨1, 4⟩, ⟨1, 7⟩⟩, ⟨.closeList, ⟨1, 7⟩, ⟨1, 8⟩⟩] := by with_unfolding_all rfl
  have hnumeral : Decimal.ofChars? ['0', '.', '1'] = some ⟨false, 1, -1⟩ := by decide
  have hread : readSource "(x 0.1)"
      = .ok [.list [.symbol "x", .number (Decimal.toFloat ⟨false, 1, -1⟩)]] := by
    rw [readSource, htokens, ← classifyAtom_of_numeral hnumeral]
    rfl
  refine ⟨_, hread, (print_reads_back_iff hread).mpr ?_⟩
  intro e he x hx
  obtain rfl := List.mem_singleton.mp he
  obtain rfl : x = Decimal.toFloat ⟨false, 1, -1⟩ := by simpa [atoms, atomsAll] using hx
  decide +kernel

/-! ## Programs that can be read back -/

theorem isDelimiter_iff {c : Char} : isDelimiter c = true ↔ c ∈ ['(', ')', '"', ';'] := by
  simp [isDelimiter]
  tauto

theorem isAtom_iff {name : String} :
    IsAtom name.toList ↔
      name ≠ "" ∧ ∀ c ∈ name.toList, isBlank c = false ∧ c ∉ ['(', ')', '"', ';'] := by
  have hempty : name.toList ≠ [] ↔ name ≠ "" := by simp
  have hchar : ∀ c, isAtomChar c = true ↔ isBlank c = false ∧ c ∉ ['(', ')', '"', ';'] := by
    intro c
    rw [← isDelimiter_iff]
    simp [isAtomChar]
  unfold IsAtom
  rw [hempty]
  exact and_congr_right fun _ => forall₂_congr fun c _ => hchar c

theorem no_numeral_iff {chars : List Char} :
    Decimal.ofChars? chars = none ↔ ∀ x, classifyAtom chars ≠ .number x := by
  constructor
  · intro hnone x hnumber
    unfold classifyAtom at hnumber
    rw [hnone] at hnumber
    cases hnumber
  · intro hother
    cases hnumeral : Decimal.ofChars? chars with
    | none => rfl
    | some d => exact absurd (classifyAtom_of_numeral hnumeral) (hother d.toFloat)

/-- **Reading undoes printing** on every program whose numbers are finite and whose symbols are
atoms that are not taken for numbers, and on no other program. Texts may hold anything. -/
theorem printed_program_reads_back_iff {es : List Expr} :
    readSource (printProgram es) = .ok es ↔
      (∀ x, .number x ∈ atomsAll es → Binary64.isFinite x = true) ∧
      ∀ name, .symbol name ∈ atomsAll es →
        (name ≠ "" ∧ ∀ c ∈ name.toList, isBlank c = false ∧ c ∉ ['(', ')', '"', ';']) ∧
          ∀ x, classifyAtom name.toList ≠ .number x := by
  have hlegible : Legible (atomsAll es) ↔ ∀ name, .symbol name ∈ atomsAll es →
      (name ≠ "" ∧ ∀ c ∈ name.toList, isBlank c = false ∧ c ∉ ['(', ')', '"', ';']) ∧
        ∀ x, classifyAtom name.toList ≠ .number x :=
    forall₂_congr fun name _ => and_congr isAtom_iff no_numeral_iff
  rw [← hlegible]
  constructor
  · intro hread
    -- nothing illegible comes out of a text, and what comes out is `es`
    have hsymbols := legible_of_read hread
    rw [readSource_printProgram hsymbols.printable, Except.ok.injEq] at hread
    exact ⟨(rereadAll_eq_self_iff es hsymbols).mp hread, hsymbols⟩
  · rintro ⟨hnumbers, hsymbols⟩
    rw [readSource_printProgram hsymbols.printable, (rereadAll_eq_self_iff es hsymbols).mpr hnumbers]

end Expr

end Colloquy
