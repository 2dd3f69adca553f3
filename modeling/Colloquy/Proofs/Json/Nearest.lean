import Colloquy.Proofs.Json.Number

/-!
# The double nearest to a literal

The literal of a finite number is the shortest numeral that rounds to the number, written with a point
or with an exponent. A reader that takes the double nearest to a literal gets the number back
(`Json.nearest?_ofFloat`), which a reading to best effort need not. The digits that stand before an
exponent are a numeral of one digit and a fraction, which the exponent moves back to where they were
taken from (`Layout.readsAs_scientificText`).
-/

namespace Colloquy

open Decimal (AllDigits allDigits_toDigits isDigit valueOf valueOf_toDigits)

namespace Decimal

open Layout (fractionChars exponentChars)

theorem exponent?_exponentChars (exponent : Int) : exponent? (exponentChars exponent) = some exponent := by
  have hdigits : (Nat.toDigits 10 exponent.natAbs).all isDigit = true :=
    List.all_eq_true.mpr (allDigits_toDigits _)
  have hsign : splitSign ((if exponent < 0 then '-' else '+') :: Nat.toDigits 10 exponent.natAbs)
      = (decide (exponent < 0), Nat.toDigits 10 exponent.natAbs) := by
    by_cases hnegative : exponent < 0
    · rw [if_pos hnegative, decide_eq_true hnegative]
      rfl
    · rw [if_neg hnegative, decide_eq_false hnegative]
      rfl
  unfold exponentChars exponent? integer?
  dsimp only
  rw [if_pos (Or.inl rfl), hsign]
  dsimp only
  rw [if_pos ⟨Nat.toDigits_ne_nil, hdigits⟩, valueOf_toDigits]
  congr 1
  by_cases hnegative : exponent < 0
  · rw [if_pos (decide_eq_true hnegative)]
    omega
  · rw [if_neg (by simp [hnegative])]
    omega

theorem endsStretch_exponentChars (exponent : Int) :
    EndsStretch isDigit (exponentChars exponent) := rfl

/-- One digit before the point, and an exponent. -/
theorem unsigned?_scientific (negative : Bool) {first : Char} {rest : List Char}
    (hdigits : AllDigits (first :: rest)) (exponent : Int) :
    unsigned? negative ([first] ++ (fractionChars rest ++ exponentChars exponent))
      = some ⟨negative, valueOf (first :: rest), exponent - rest.length⟩ := by
  obtain ⟨hfirst, hrest⟩ := List.forall_mem_cons.mp hdigits
  have hone : AllDigits [first] := List.forall_mem_singleton.mpr hfirst
  have hexponent := exponent?_exponentChars exponent
  cases rest with
  | nil =>
    have hends := endsStretch_exponentChars exponent
    have htaken := takeWhile_stretch hone hends
    have hleft := dropWhile_stretch hone hends
    unfold unsigned? fractionChars
    rw [List.nil_append, htaken, hleft]
    show (if [first] = [] then none else (exponent? (exponentChars exponent)).map _) = _
    rw [if_neg (List.cons_ne_nil first []), hexponent]
    simp
  | cons next more =>
    have hends : EndsStretch isDigit ('.' :: (next :: more ++ exponentChars exponent)) := rfl
    have htaken := takeWhile_stretch hone hends
    have hleft := dropWhile_stretch hone hends
    have htaken' := takeWhile_stretch hrest (endsStretch_exponentChars exponent)
    have hleft' := dropWhile_stretch hrest (endsStretch_exponentChars exponent)
    show unsigned? negative ([first] ++ '.' :: (next :: more ++ exponentChars exponent)) = _
    unfold unsigned?
    simp only [htaken, hleft, htaken', hleft', hexponent]
    rw [if_neg fun h => List.cons_ne_nil first [] h.1]
    rfl

end Decimal

namespace Layout

open Numeral

/-- Digits of a document with an exponent read as the position that the digits read as. -/
theorem readsAs_scientificText (negative : Bool) {digits position : Nat} {exponent : Int}
    (h : Decimal.ReadsAs ⟨negative, digits, exponent⟩ position) :
    ∃ d : Decimal, Decimal.unsigned? negative (document.scientificText (Nat.toDigits 10 digits)
        (exponent + (Nat.toDigits 10 digits).length)).toList = some d ∧
      d.negative = negative ∧ d.ReadsAs position := by
  have hdigits := allDigits_toDigits digits
  have hvalue := valueOf_toDigits digits
  have hne : Nat.toDigits 10 digits ≠ [] := Nat.toDigits_ne_nil
  generalize Nat.toDigits 10 digits = chars at hdigits hvalue hne
  obtain ⟨first, rest, rfl⟩ := List.exists_cons_of_ne_nil hne
  rw [toList_scientificText]
  refine ⟨_, Decimal.unsigned?_scientific negative hdigits _, rfl, ?_⟩
  have hplaces : exponent + ((first :: rest).length : Int) - 1 - rest.length = exponent := by
    rw [List.length_cons]
    omega
  rw [hvalue, hplaces]
  exact h

theorem head_isUnsigned {cs : List Char} (h : IsUnsigned cs) :
    ∃ c rest, cs = c :: rest ∧ isDigit c = true := by
  obtain @⟨whole, fraction, exponent, hwhole, -, -⟩ := h
  obtain ⟨first, rest, rfl⟩ := List.exists_cons_of_ne_nil hwhole.nonempty
  exact ⟨first, _, rfl, hwhole.digits first (List.mem_cons_self ..)⟩

/-- The literal of a position is a numeral, and the position is the one nearest to it. -/
theorem document_magnitude (negative : Bool) {position : Nat} (hfinite : position < Binary64.infinity) :
    ∃ d, Decimal.unsigned? negative (document.magnitude position).toList = some d ∧
      d.negative = negative ∧ d.position = position := by
  unfold magnitude
  split
  · next hzero =>
    subst hzero
    exact ⟨⟨negative, 0, -1⟩, rfl, rfl, rfl⟩
  · next hnonzero =>
    have hreads := shortest_readsAs document.tie negative (Nat.pos_of_ne_zero hnonzero)
    dsimp only
    split
    · have hmark : document.wholeMark = "" ∨ document.wholeMark = ".0" := Or.inr rfl
      obtain ⟨d, hd, hsign, hposition⟩ := readsAs_positionalText hmark negative hreads
      exact ⟨d, hd, hsign, hposition.position_eq hfinite⟩
    · obtain ⟨d, hd, hsign, hposition⟩ := readsAs_scientificText negative hreads
      exact ⟨d, hd, hsign, hposition.position_eq hfinite⟩

/-- The literal of a finite number reads back as the number. -/
theorem document_readsBack {x : Float} (hfinite : Binary64.isFinite x = true) :
    ∃ d, Decimal.ofChars? (document.finite x).toList = some d ∧ d.toFloat = x := by
  have hposition : Binary64.positionOf x < Binary64.infinity := of_decide_eq_true hfinite
  obtain ⟨d, hd, hsign, hvalue⟩ := document_magnitude (Binary64.isNegative x) hposition
  obtain ⟨c, rest, hchars, hc⟩ := head_isUnsigned (isUnsigned_magnitude (Binary64.positionOf x))
  refine ⟨d, ?_, ?_⟩
  · rw [toList_finite, hchars, Decimal.ofChars?_sign _ hc, ← hchars, hd]
  · unfold Decimal.toFloat
    rw [hsign, hvalue, Binary64.toFloat_positionOf]

end Layout

namespace Json

/-- The double nearest to a number. -/
def nearest? : Json → Option Float
  | number literal => (Decimal.ofChars? literal.toList).map Decimal.toFloat
  | _ => none

/-- **The double nearest to the literal of a finite number** is the number. -/
theorem nearest?_ofFloat {x : Float} (hfinite : Binary64.isFinite x = true) :
    nearest? (ofFloat x) = some x := by
  obtain ⟨d, hread, hvalue⟩ := Layout.document_readsBack hfinite
  unfold ofFloat
  rw [if_pos hfinite]
  show (Decimal.ofChars? _).map _ = _
  rw [hread, Option.map_some, hvalue]

end Json

end Colloquy
