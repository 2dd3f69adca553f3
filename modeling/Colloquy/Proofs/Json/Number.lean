import Colloquy.Proofs.Json.Reading
import Colloquy.Proofs.Number.Plain

/-!
# The number literals of documents

What is written for a finite number is a numeral that documents may have. Main statement,
`Layout.isNumeral_finite`; with it every document of a number is plain (`Json.plain_ofFloat`), and so
can be read, whether or not it is read as the same number: the digits determine it, but a quantity is
read to best effort.

A numeral is a whole part, a fraction and an exponent, each with a shape of its own, and each form of
writing digits gives these three.
-/

namespace Colloquy

open Decimal (AllDigits allDigits_zeros allDigits_toDigits isDigit)

/-! ## Numerals -/

namespace Numeral

/-- Digits without a superfluous leading zero. -/
structure IsWhole (cs : List Char) : Prop where
  digits : AllDigits cs
  nonempty : cs ≠ []
  noZero : cs.head? = some '0' → cs.length = 1

/-- Nothing, or a point and digits. -/
inductive IsFraction : List Char → Prop
  | none : IsFraction []
  | some {digits : List Char} (hdigits : AllDigits digits) (hne : digits ≠ []) :
    IsFraction ('.' :: digits)

/-- Nothing, or a mark, a sign and digits. -/
inductive IsExponent : List Char → Prop
  | none : IsExponent []
  | some {sign : Char} {digits : List Char} (hsign : sign = '-' ∨ sign = '+')
    (hdigits : AllDigits digits) (hne : digits ≠ []) : IsExponent ('e' :: sign :: digits)

/-- A whole part, a fraction and an exponent. -/
inductive IsUnsigned : List Char → Prop
  | parts {whole fraction exponent : List Char} (hwhole : IsWhole whole)
    (hfraction : IsFraction fraction) (hexponent : IsExponent exponent) :
    IsUnsigned (whole ++ (fraction ++ exponent))

variable {whole fraction exponent : List Char}

theorem IsExponent.endsStretch (h : IsExponent exponent) : EndsStretch isDigit exponent := by
  cases h <;> rfl

theorem IsFraction.endsStretch (h : IsFraction fraction) (h' : IsExponent exponent) :
    EndsStretch isDigit (fraction ++ exponent) := by
  cases h with
  | none => exact h'.endsStretch
  | some => rfl

theorem IsExponent.isSome (h : IsExponent exponent) : (exponentPart? exponent).isSome = true := by
  cases h with
  | none => rfl
  | @some sign digits hsign hdigits hne =>
    obtain ⟨negative, hsplit⟩ : ∃ negative, Decimal.splitSign (sign :: digits) = (negative, digits) := by
      rcases hsign with rfl | rfl
      · exact ⟨true, rfl⟩
      · exact ⟨false, rfl⟩
    unfold exponentPart?
    dsimp only
    rw [if_pos (Or.inl rfl), hsplit]
    dsimp only
    rw [if_pos ⟨hne, List.all_eq_true.mpr hdigits⟩]
    rfl

/-- A whole part, a fraction and an exponent make a numeral. -/
theorem isSome_unsigned? (negative : Bool) (hwhole : IsWhole whole) (hfraction : IsFraction fraction)
    (hexponent : IsExponent exponent) :
    (unsigned? negative (whole ++ (fraction ++ exponent))).isSome = true := by
  have htaken := takeWhile_stretch hwhole.digits (hfraction.endsStretch hexponent)
  have hleft := dropWhile_stretch hwhole.digits (hfraction.endsStretch hexponent)
  have hwell : ¬ (whole = [] ∨ whole.head? = some '0' ∧ whole.length ≠ 1) := by
    rintro (hempty | ⟨hzero, hlong⟩)
    · exact hwhole.nonempty hempty
    · exact hlong (hwhole.noZero hzero)
  unfold unsigned?
  simp only [htaken, hleft]
  rw [if_neg hwell]
  cases hfraction with
  | none =>
    have hsome := hexponent.isSome
    cases hexponent with
    | none => rfl
    | some hsign hdigits hne =>
      show ((exponentPart? _).map _).isSome = true
      rw [Option.isSome_map]
      exact hsome
  | @some digits hdigits hne =>
    have htaken' := takeWhile_stretch hdigits hexponent.endsStretch
    have hleft' := dropWhile_stretch hdigits hexponent.endsStretch
    simp only [List.cons_append, htaken', hleft']
    rw [if_neg hne, Option.isSome_map]
    exact hexponent.isSome

/-! ## Their characters -/

theorem isNumeralChar_of_isDigit {c : Char} (h : isDigit c = true) : Json.isNumeralChar c = true := by
  simp [Json.isNumeralChar, h]

theorem IsFraction.chars (h : IsFraction fraction) :
    ∀ c ∈ fraction, Json.isNumeralChar c = true := by
  cases h with
  | none => simp
  | some hdigits =>
    exact List.forall_mem_cons.mpr ⟨rfl, fun c hc => isNumeralChar_of_isDigit (hdigits c hc)⟩

theorem IsExponent.chars (h : IsExponent exponent) :
    ∀ c ∈ exponent, Json.isNumeralChar c = true := by
  cases h with
  | none => simp
  | some hsign hdigits =>
    refine List.forall_mem_cons.mpr ⟨rfl, List.forall_mem_cons.mpr
      ⟨?_, fun c hc => isNumeralChar_of_isDigit (hdigits c hc)⟩⟩
    rcases hsign with rfl | rfl <;> rfl

/-- Behind a sign, where there is one, they are a literal that can be read. -/
theorem IsUnsigned.isNumeral {cs : List Char} (h : IsUnsigned cs) (negative : Bool) :
    Json.IsNumeral ((if negative then ['-'] else []) ++ cs) := by
  obtain @⟨whole, fraction, exponent, hwhole, hfraction, hexponent⟩ := h
  have hread := isSome_unsigned? negative hwhole hfraction hexponent
  have hchars : ∀ c ∈ whole ++ (fraction ++ exponent), Json.isNumeralChar c = true := by
    refine List.forall_mem_append.mpr ⟨fun c hc => isNumeralChar_of_isDigit (hwhole.digits c hc), ?_⟩
    exact List.forall_mem_append.mpr ⟨hfraction.chars, hexponent.chars⟩
  cases negative with
  | true => exact ⟨List.forall_mem_cons.mpr ⟨rfl, hchars⟩, hread⟩
  | false =>
    refine ⟨hchars, ?_⟩
    obtain ⟨first, rest, rfl⟩ := List.exists_cons_of_ne_nil hwhole.nonempty
    have hminus : first ≠ '-' := by
      rintro rfl
      exact absurd (hwhole.digits _ (List.mem_cons_self ..)) (by decide)
    show (ofChars? (first :: (rest ++ (fraction ++ exponent)))).isSome = true
    unfold ofChars?
    split
    · next heq => exact absurd (List.cons.inj heq).1 hminus
    · exact hread

/-! ## Digits of numbers -/

theorem isWhole_zero : IsWhole ['0'] := ⟨allDigits_zeros 1, by simp, fun _ => rfl⟩

/-- The digits of a number that is not zero do not start with a zero. -/
theorem head?_toDigits {n : Nat} (h : n ≠ 0) : (Nat.toDigits 10 n).head? ≠ some '0' := by
  induction n using Nat.strong_induction_on with
  | _ n ih =>
    by_cases hsmall : n < 10
    · have hdigit : ∀ n < 10, n ≠ 0 → Nat.digitChar n ≠ '0' := by decide
      rw [Nat.toDigits_of_lt_base hsmall]
      exact fun heq => hdigit n hsmall h (Option.some.inj heq)
    · rw [Nat.toDigits_of_base_le (by omega) (by omega),
        List.head?_append_of_ne_nil _ Nat.toDigits_ne_nil]
      exact ih (n / 10) (by omega) (by omega)

/-- Digits that do not start with a zero are a whole part, with digits behind them or alone. -/
theorem isWhole_append {cs ds : List Char} (hcs : AllDigits cs) (hds : AllDigits ds) (hne : cs ≠ [])
    (hzero : cs.head? ≠ some '0') : IsWhole (cs ++ ds) := by
  refine ⟨hcs.append hds, by simp [hne], fun h => ?_⟩
  rw [List.head?_append_of_ne_nil _ hne] at h
  exact absurd h hzero

end Numeral

namespace Layout

open Numeral

/-- A point and the digits behind it, if there are any. -/
def fractionChars : List Char → List Char
  | [] => []
  | digits => '.' :: digits

/-- The mark, the sign and the digits of an exponent of a document. -/
def exponentChars (exponent : Int) : List Char :=
  'e' :: (if exponent < 0 then '-' else '+') :: Nat.toDigits 10 exponent.natAbs

/-- The characters of digits with an exponent, one of the digits before the point. -/
theorem toList_scientificText (first : Char) (rest : List Char) (point : Int) :
    (document.scientificText (first :: rest) point).toList
      = [first] ++ (fractionChars rest ++ exponentChars (point - 1)) := by
  have hmantissa : ∀ mantissa : String, (mantissa ++ "e" ++ (if point - 1 < 0 then "-" else "+")
      ++ toString (point - 1).natAbs).toList = mantissa.toList ++ exponentChars (point - 1) := by
    intro mantissa
    unfold exponentChars
    split <;> simp [Nat.toList_repr]
  unfold scientificText
  rw [show document.exponentPlus = "+" from rfl, hmantissa]
  cases rest with
  | nil =>
    rw [String.toList_ofList]
    rfl
  | cons next rest =>
    rw [String.toList_ofList]
    rfl

section Document

variable {digits : List Char} (hdigits : AllDigits digits) (hne : digits ≠ [])
  (hzero : digits.head? ≠ some '0')

include hdigits hne hzero

/-- Positional digits of a document make a numeral. -/
theorem isUnsigned_positionalText (point : Int) :
    IsUnsigned (document.positionalText digits point).toList := by
  rw [toList_positionalText]
  split
  · have hfraction := (allDigits_zeros (-point).toNat).append hdigits
    have h : IsUnsigned (['0'] ++ ('.' :: (List.replicate (-point).toNat '0' ++ digits) ++ [])) :=
      .parts isWhole_zero (.some hfraction (by simp [hne])) .none
    rwa [List.append_nil] at h
  · split
    · have hwhole := isWhole_append hdigits (allDigits_zeros (point - digits.length).toNat) hne hzero
      exact .parts hwhole (.some (allDigits_zeros 1) (by simp)) .none
    · next hpositive hinside =>
      have hwhole : IsWhole (digits.take point.toNat ++ []) := by
        refine isWhole_append (hdigits.take _) (allDigits_zeros 0) (by simp [hne]; omega) ?_
        rw [List.head?_take, if_neg (by omega)]
        exact hzero
      have hfraction : IsFraction ('.' :: digits.drop point.toNat) :=
        .some (hdigits.drop _) (by simp; omega)
      have h := IsUnsigned.parts hwhole hfraction .none
      rwa [List.append_nil, List.append_nil] at h

/-- Digits of a document with an exponent make a numeral. -/
theorem isUnsigned_scientificText (point : Int) :
    IsUnsigned (document.scientificText digits point).toList := by
  obtain ⟨first, rest, rfl⟩ := List.exists_cons_of_ne_nil hne
  have hwhole : IsWhole ([first] ++ []) :=
    isWhole_append (hdigits.take 1) (allDigits_zeros 0) (by simp) hzero
  have hexponent : IsExponent (exponentChars (point - 1)) := by
    refine .some ?_ (allDigits_toDigits _) Nat.toDigits_ne_nil
    split
    · exact Or.inl rfl
    · exact Or.inr rfl
  have hfraction : IsFraction (fractionChars rest) := by
    cases rest with
    | nil => exact .none
    | cons next rest => exact .some (hdigits.drop 1) (List.cons_ne_nil next rest)
  rw [toList_scientificText]
  exact .parts hwhole hfraction hexponent

end Document

theorem isUnsigned_magnitude (position : Nat) : IsUnsigned (document.magnitude position).toList := by
  unfold magnitude
  split
  · have h : IsUnsigned (['0'] ++ (['.', '0'] ++ [])) :=
      .parts isWhole_zero (.some (allDigits_zeros 1) (by simp)) .none
    exact h
  · next hnonzero =>
    have hreads := shortest_readsAs document.tie false (Nat.pos_of_ne_zero hnonzero)
    have hzero := head?_toDigits hreads.nonzero
    dsimp only at hzero ⊢
    split
    · exact isUnsigned_positionalText (allDigits_toDigits _) Nat.toDigits_ne_nil hzero _
    · exact isUnsigned_scientificText (allDigits_toDigits _) Nat.toDigits_ne_nil hzero _

/-- **The literal of a finite number** is a numeral of a document. -/
theorem isNumeral_finite (x : Float) : Json.IsNumeral (document.finite x).toList := by
  rw [toList_finite]
  exact (isUnsigned_magnitude (Binary64.positionOf x)).isNumeral (Binary64.isNegative x)

end Layout

theorem Json.plain_ofFloat (x : Float) : (Json.ofFloat x).Plain := by
  unfold ofFloat
  split
  · exact plain_number (Layout.isNumeral_finite x)
  · exact plain_null

end Colloquy
