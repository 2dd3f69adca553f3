import Colloquy.Number.Decimal
import Colloquy.Proofs.Text

/-!
# The grammar of numerals

A numeral is an optional sign, digits with a point behind or among them or in front of them, and an
optional exponent. Which characters count as digits is left open: `IsNumeral` is the grammar over any
of them, and over other digits it holds the same texts as far as their digits are of both sorts
(`IsNumeral.of_digits`).

Main statement, `Decimal.isSome_ofChars?_iff`: a text can be read as a decimal exactly when it is a
numeral over the ASCII digits. The reader takes the longest stretches of digits that it finds, which is
right since no digit is a sign, a point or the mark of an exponent.
-/

namespace Colloquy.Decimal

/-! ## The grammar -/

section Grammar

variable (digit : Char → Prop)

/-- A nonempty string of digits. -/
def IsDigits (cs : List Char) : Prop := cs ≠ [] ∧ ∀ c ∈ cs, digit c

/-- A sign, or nothing. -/
inductive IsSign : List Char → Prop
  | absent : IsSign []
  | plus : IsSign ['+']
  | minus : IsSign ['-']

/-- Digits with at most one point among them. The digits in front of it or those behind it may be
missing. -/
inductive IsMantissa : List Char → Prop
  | whole {whole : List Char} (hwhole : IsDigits digit whole) : IsMantissa whole
  | point {whole fraction : List Char} (hwhole : IsDigits digit whole)
      (hfraction : ∀ c ∈ fraction, digit c) : IsMantissa (whole ++ '.' :: fraction)
  | fraction {fraction : List Char} (hfraction : IsDigits digit fraction) :
      IsMantissa ('.' :: fraction)

/-- A mark, a sign and digits, or nothing. -/
inductive IsExponent : List Char → Prop
  | absent : IsExponent []
  | present {mark : Char} {sign digits : List Char} (hmark : mark = 'e' ∨ mark = 'E')
      (hsign : IsSign sign) (hdigits : IsDigits digit digits) : IsExponent (mark :: (sign ++ digits))

/-- A sign, a mantissa and an exponent. -/
inductive IsNumeral : List Char → Prop
  | mk {sign mantissa exponent : List Char} (hsign : IsSign sign)
      (hmantissa : IsMantissa digit mantissa) (hexponent : IsExponent digit exponent) :
      IsNumeral (sign ++ (mantissa ++ exponent))

end Grammar

/-! ## Characters -/

section Characters

variable {digit : Char → Prop} {cs : List Char}

theorem IsSign.chars (h : IsSign cs) : ∀ c ∈ cs, c ∈ ['+', '-'] := by
  cases h with
  | absent => simp
  | plus => simp
  | minus => simp

theorem IsMantissa.chars (h : IsMantissa digit cs) : ∀ c ∈ cs, digit c ∨ c = '.' := by
  cases h with
  | whole hwhole => exact fun c hc => .inl (hwhole.2 c hc)
  | point hwhole hfraction =>
    refine List.forall_mem_append.mpr ⟨fun c hc => .inl (hwhole.2 c hc), ?_⟩
    exact List.forall_mem_cons.mpr ⟨.inr rfl, fun c hc => .inl (hfraction c hc)⟩
  | fraction hfraction =>
    exact List.forall_mem_cons.mpr ⟨.inr rfl, fun c hc => .inl (hfraction.2 c hc)⟩

theorem IsExponent.chars (h : IsExponent digit cs) :
    ∀ c ∈ cs, digit c ∨ c ∈ ['+', '-', 'e', 'E'] := by
  cases h with
  | absent => simp
  | present hmark hsign hdigits =>
    refine List.forall_mem_cons.mpr ⟨.inr (by rcases hmark with rfl | rfl <;> simp), ?_⟩
    refine List.forall_mem_append.mpr ⟨fun c hc => .inr ?_, fun c hc => .inl (hdigits.2 c hc)⟩
    exact List.mem_append_left ['e', 'E'] (hsign.chars c hc)

/-- A numeral holds digits, signs, points and marks of exponents. -/
theorem IsNumeral.chars (h : IsNumeral digit cs) :
    ∀ c ∈ cs, digit c ∨ c ∈ ['+', '-', 'e', 'E', '.'] := by
  obtain ⟨hsign, hmantissa, hexponent⟩ := h
  refine List.forall_mem_append.mpr ⟨fun c hc => .inr ?_, List.forall_mem_append.mpr ⟨?_, ?_⟩⟩
  · exact List.mem_append_left ['e', 'E', '.'] (hsign.chars c hc)
  · intro c hc
    rcases hmantissa.chars c hc with hdigit | rfl
    · exact .inl hdigit
    · simp
  · intro c hc
    exact (hexponent.chars c hc).imp_right (List.mem_append_left ['.'])

end Characters

/-! ## Other digits -/

section Digits

variable {digit digit' : Char → Prop} {cs : List Char}

theorem IsDigits.of_digits (h : IsDigits digit cs) (hsame : ∀ c ∈ cs, digit c → digit' c) :
    IsDigits digit' cs :=
  ⟨h.1, fun c hc => hsame c hc (h.2 c hc)⟩

theorem IsMantissa.of_digits (h : IsMantissa digit cs) (hsame : ∀ c ∈ cs, digit c → digit' c) :
    IsMantissa digit' cs := by
  cases h with
  | whole hwhole => exact .whole (hwhole.of_digits hsame)
  | point hwhole hfraction =>
    rw [List.forall_mem_append, List.forall_mem_cons] at hsame
    obtain ⟨hleft, -, hright⟩ := hsame
    exact .point (hwhole.of_digits hleft) fun c hc => hright c hc (hfraction c hc)
  | fraction hfraction => exact .fraction (hfraction.of_digits (List.forall_mem_cons.mp hsame).2)

theorem IsExponent.of_digits (h : IsExponent digit cs) (hsame : ∀ c ∈ cs, digit c → digit' c) :
    IsExponent digit' cs := by
  cases h with
  | absent => exact .absent
  | present hmark hsign hdigits =>
    have hright := (List.forall_mem_append.mp (List.forall_mem_cons.mp hsame).2).2
    exact .present hmark hsign (hdigits.of_digits hright)

/-- A numeral is one over other digits too if its own are of both sorts. -/
theorem IsNumeral.of_digits (h : IsNumeral digit cs) (hsame : ∀ c ∈ cs, digit c → digit' c) :
    IsNumeral digit' cs := by
  obtain ⟨hsign, hmantissa, hexponent⟩ := h
  rw [List.forall_mem_append, List.forall_mem_append] at hsame
  exact .mk hsign (hmantissa.of_digits hsame.2.1) (hexponent.of_digits hsame.2.2)

end Digits

/-! ## Reading numerals -/

/-- A numeral over the ASCII digits. -/
abbrev IsAsciiNumeral (cs : List Char) : Prop := IsNumeral (isDigit · = true) cs

variable {cs rest : List Char}

theorem toNat_lt_of_isDigit {c : Char} (hdigit : isDigit c = true) : c.toNat < 128 := by
  have hle : c ≤ '9' := (by simpa [isDigit] using hdigit : '0' ≤ c ∧ c ≤ '9').2
  exact Nat.lt_of_le_of_lt (UInt32.le_iff_toNat_le.mp hle) (by decide)

theorem IsNumeral.isAscii (h : IsAsciiNumeral cs) : ∀ c ∈ cs, c.toNat < 128 := by
  intro c hc
  rcases h.chars c hc with hdigit | hmark
  · exact toNat_lt_of_isDigit hdigit
  · simp only [List.mem_cons, List.not_mem_nil, or_false] at hmark
    rcases hmark with rfl | rfl | rfl | rfl | rfl <;> decide

/-- What is taken off the front is a sign. -/
theorem splitSign_spec (cs : List Char) : ∃ sign, IsSign sign ∧ cs = sign ++ (splitSign cs).2 := by
  unfold splitSign
  split
  · exact ⟨_, .minus, rfl⟩
  · exact ⟨_, .plus, rfl⟩
  · exact ⟨_, .absent, rfl⟩

/-- A sign is taken off what does not start with one. -/
theorem splitSign_append {sign : List Char} (hsign : IsSign sign)
    (hhead : ∀ c ∈ cs.head?, c ≠ '-' ∧ c ≠ '+') : (splitSign (sign ++ cs)).2 = cs := by
  cases hsign with
  | plus => rfl
  | minus => rfl
  | absent =>
    unfold splitSign
    split
    · next rest heq =>
      obtain rfl : cs = '-' :: rest := heq
      exact absurd rfl (hhead '-' rfl).1
    · next rest heq =>
      obtain rfl : cs = '+' :: rest := heq
      exact absurd rfl (hhead '+' rfl).2
    · rfl

theorem ne_sign_of_isDigit {c : Char} (hdigit : isDigit c = true) : c ≠ '-' ∧ c ≠ '+' := by
  constructor <;> rintro rfl <;> exact absurd hdigit (by decide)

theorem isSome_integer?_iff :
    (integer? cs).isSome = true ↔
      ∃ sign digits, IsSign sign ∧ IsDigits (isDigit · = true) digits ∧ cs = sign ++ digits := by
  have hread : (integer? cs).isSome = true ↔
      (splitSign cs).2 ≠ [] ∧ (splitSign cs).2.all isDigit = true := by
    unfold integer?
    dsimp only
    split
    · next hdigits => exact iff_of_true rfl hdigits
    · next hother => exact iff_of_false (by simp) hother
  rw [hread, List.all_eq_true]
  constructor
  · intro hdigits
    obtain ⟨sign, hsign, heq⟩ := splitSign_spec cs
    exact ⟨sign, _, hsign, hdigits, heq⟩
  · rintro ⟨sign, digits, hsign, hdigits, rfl⟩
    have hhead : ∀ c ∈ digits.head?, c ≠ '-' ∧ c ≠ '+' := fun c hc =>
      ne_sign_of_isDigit (hdigits.2 c (List.mem_of_mem_head? hc))
    rw [splitSign_append hsign hhead]
    exact hdigits

theorem isSome_exponent?_iff :
    (exponent? cs).isSome = true ↔ IsExponent (isDigit · = true) cs := by
  cases cs with
  | nil => exact iff_of_true rfl .absent
  | cons mark rest =>
    unfold exponent?
    dsimp only
    split
    · next hmark =>
      rw [isSome_integer?_iff]
      constructor
      · rintro ⟨sign, digits, hsign, hdigits, rfl⟩
        exact .present hmark hsign hdigits
      · rintro ⟨⟩
        exact ⟨_, _, ‹_›, ‹_›, rfl⟩
    · next hother =>
      refine iff_of_false (by simp) ?_
      rintro ⟨⟩
      exact hother ‹_›

/-- The stretch of digits in front of an exponent ends there. -/
theorem IsExponent.endsStretch (h : IsExponent (isDigit · = true) cs) : EndsStretch isDigit cs := by
  cases h with
  | absent => exact endsStretch_nil
  | present hmark hsign hdigits =>
    rw [endsStretch_cons]
    rcases hmark with rfl | rfl <;> rfl

/-- Digits without a point, and what is behind them. -/
theorem isSome_unsigned?_whole (negative : Bool) {whole : List Char}
    (hwhole : ∀ c ∈ whole, isDigit c = true) (hends : EndsStretch isDigit rest)
    (hpoint : ∀ other, rest ≠ '.' :: other) :
    (unsigned? negative (whole ++ rest)).isSome = true ↔
      whole ≠ [] ∧ (exponent? rest).isSome = true := by
  unfold unsigned?
  rw [takeWhile_stretch hwhole hends, dropWhile_stretch hwhole hends]
  dsimp only
  split
  · next other => exact absurd rfl (hpoint other)
  · split
    · next hempty => simp [hempty]
    · next hdigits => simp [hdigits]

/-- Digits around a point, and what is behind them. -/
theorem isSome_unsigned?_point (negative : Bool) {whole fraction : List Char}
    (hwhole : ∀ c ∈ whole, isDigit c = true) (hfraction : ∀ c ∈ fraction, isDigit c = true)
    (hends : EndsStretch isDigit rest) :
    (unsigned? negative (whole ++ '.' :: (fraction ++ rest))).isSome = true ↔
      ¬ (whole = [] ∧ fraction = []) ∧ (exponent? rest).isSome = true := by
  have hpoint : EndsStretch isDigit ('.' :: (fraction ++ rest)) := rfl
  unfold unsigned?
  rw [takeWhile_stretch hwhole hpoint, dropWhile_stretch hwhole hpoint]
  simp only [takeWhile_stretch hfraction hends, dropWhile_stretch hfraction hends]
  split
  · next hempty => simp [hempty]
  · next hdigits => simp [hdigits]

theorem isSome_unsigned?_iff (negative : Bool) :
    (unsigned? negative cs).isSome = true ↔
      ∃ mantissa exponent, IsMantissa (isDigit · = true) mantissa ∧
        IsExponent (isDigit · = true) exponent ∧ cs = mantissa ++ exponent := by
  constructor
  · intro hread
    -- the text is digits and a rest, which may be a point, digits again and another rest
    have hwhole : ∀ c ∈ cs.takeWhile isDigit, isDigit c = true := fun c hc =>
      List.all_eq_true.mp List.all_takeWhile c hc
    have heq := List.takeWhile_append_dropWhile (p := isDigit) (l := cs)
    have hends := endsStretch_dropWhile isDigit cs
    generalize cs.takeWhile isDigit = whole at *
    generalize cs.dropWhile isDigit = rest at *
    subst heq
    by_cases hpoint : ∃ other, rest = '.' :: other
    · obtain ⟨other, rfl⟩ := hpoint
      have hfraction : ∀ c ∈ other.takeWhile isDigit, isDigit c = true := fun c hc =>
        List.all_eq_true.mp List.all_takeWhile c hc
      have heq := List.takeWhile_append_dropWhile (p := isDigit) (l := other)
      have hends' := endsStretch_dropWhile isDigit other
      generalize other.takeWhile isDigit = fraction at *
      generalize other.dropWhile isDigit = exponent at *
      subst heq
      obtain ⟨hdigits, hexponent⟩ :=
        (isSome_unsigned?_point negative hwhole hfraction hends').mp hread
      have hexponent := isSome_exponent?_iff.mp hexponent
      by_cases hempty : whole = []
      · subst hempty
        have hnonempty : fraction ≠ [] := fun h => hdigits ⟨rfl, h⟩
        exact ⟨_, _, .fraction ⟨hnonempty, hfraction⟩, hexponent, rfl⟩
      · exact ⟨_, _, .point ⟨hempty, hwhole⟩ hfraction, hexponent, by simp⟩
    · obtain ⟨hdigits, hexponent⟩ := (isSome_unsigned?_whole negative hwhole hends
        fun other hother => hpoint ⟨other, hother⟩).mp hread
      exact ⟨_, _, .whole ⟨hdigits, hwhole⟩, isSome_exponent?_iff.mp hexponent, rfl⟩
  · rintro ⟨mantissa, exponent, hmantissa, hexponent, rfl⟩
    have hread := isSome_exponent?_iff.mpr hexponent
    cases hmantissa with
    | whole hwhole =>
      have hpoint : ∀ other, exponent ≠ '.' :: other := by
        rintro other rfl
        cases hexponent with
        | present hmark => rcases hmark with h | h <;> exact absurd h (by decide)
      exact (isSome_unsigned?_whole negative hwhole.2 hexponent.endsStretch hpoint).mpr
        ⟨hwhole.1, hread⟩
    | point hwhole hfraction =>
      rw [List.append_assoc, List.cons_append]
      exact (isSome_unsigned?_point negative hwhole.2 hfraction hexponent.endsStretch).mpr
        ⟨fun h => hwhole.1 h.1, hread⟩
    | fraction hfraction =>
      have hnone : ∀ c ∈ ([] : List Char), isDigit c = true := fun _ hc => absurd hc List.not_mem_nil
      exact (isSome_unsigned?_point negative hnone hfraction.2 hexponent.endsStretch).mpr
        ⟨fun h => hfraction.1 h.2, hread⟩

/-- A mantissa starts with a digit or a point. -/
theorem IsMantissa.head_ne_sign (h : IsMantissa (isDigit · = true) cs) (rest : List Char) :
    ∀ c ∈ (cs ++ rest).head?, c ≠ '-' ∧ c ≠ '+' := by
  have hdigits {whole more : List Char} (hwhole : IsDigits (isDigit · = true) whole) :
      ∀ c ∈ (whole ++ more).head?, c ≠ '-' ∧ c ≠ '+' := by
    obtain ⟨first, others, rfl⟩ := List.exists_cons_of_ne_nil hwhole.1
    intro c hc
    obtain rfl : first = c := Option.some.inj hc
    exact ne_sign_of_isDigit (hwhole.2 first (List.mem_cons_self ..))
  cases h with
  | whole hwhole => exact hdigits hwhole
  | point hwhole hfraction =>
    rw [List.append_assoc]
    exact hdigits hwhole
  | fraction hfraction =>
    intro c hc
    obtain rfl : '.' = c := Option.some.inj hc
    decide

/-- The texts that are read as decimals are the numerals over the ASCII digits. -/
theorem isSome_ofChars?_iff : (ofChars? cs).isSome = true ↔ IsAsciiNumeral cs := by
  have hread : (ofChars? cs).isSome = (unsigned? (splitSign cs).1 (splitSign cs).2).isSome := rfl
  rw [hread, isSome_unsigned?_iff]
  constructor
  · rintro ⟨mantissa, exponent, hmantissa, hexponent, heq⟩
    obtain ⟨sign, hsign, hcs⟩ := splitSign_spec cs
    rw [hcs, heq]
    exact .mk hsign hmantissa hexponent
  · rintro ⟨hsign, hmantissa, hexponent⟩
    exact ⟨_, _, hmantissa, hexponent, splitSign_append hsign (hmantissa.head_ne_sign _)⟩

/-- A point needs digits on one side, and an exponent needs them behind its sign. -/
example :
    (["7", "+1.", "-.5", "2.5E-1"].all fun text => (ofChars? text.toList).isSome) = true ∧
      (["", "+", ".", "1.2.3", "1e", "5x", "inf", "٣"].all fun text =>
        (ofChars? text.toList).isNone) = true := by
  decide +kernel

end Colloquy.Decimal
