import Colloquy.Number.Layout
import Colloquy.Proofs.Number.Bits
import Colloquy.Proofs.Number.Shortest
import Colloquy.Proofs.Text

/-!
# The plain text of a number

Plain text is digits with at most one point among them, behind a minus sign if there is one. Main
statement, `Number.readsBack`: the plain text of a finite number is a numeral, and the double
nearest to that numeral is the number. The texts of the other doubles are no numerals.
-/

namespace Colloquy

open Binary64 (isFinite isNegative positionOf toFloat infinity)

namespace Decimal

/-! ## Digits -/

/-- All characters are digits. -/
def AllDigits (cs : List Char) : Prop := ∀ c ∈ cs, isDigit c = true

theorem AllDigits.append {cs ds : List Char} (h : AllDigits cs) (h' : AllDigits ds) :
    AllDigits (cs ++ ds) := by
  intro c hc
  rcases List.mem_append.mp hc with hc | hc
  · exact h c hc
  · exact h' c hc

theorem allDigits_zeros (n : Nat) : AllDigits (List.replicate n '0') := by
  intro c hc
  rw [List.eq_of_mem_replicate hc]
  rfl

theorem allDigits_toDigits (n : Nat) : AllDigits (Nat.toDigits 10 n) := by
  intro c hc
  have hdigit := Nat.isDigit_of_mem_toDigits (by omega) (by omega) hc
  simpa [isDigit, Char.isDigit, Char.le_def] using hdigit

theorem AllDigits.take {cs : List Char} (h : AllDigits cs) (n : Nat) : AllDigits (cs.take n) :=
  fun c hc => h c (List.mem_of_mem_take hc)

theorem AllDigits.drop {cs : List Char} (h : AllDigits cs) (n : Nat) : AllDigits (cs.drop n) :=
  fun c hc => h c (List.mem_of_mem_drop hc)

theorem valueOf_eq (cs : List Char) : valueOf cs = Nat.ofDigitChars 10 cs 0 := rfl

@[simp] theorem valueOf_toDigits (n : Nat) : valueOf (Nat.toDigits 10 n) = n := by
  rw [valueOf_eq, Nat.ofDigitChars_ten_toDigits]

/-- Zeros in front do not count. -/
theorem valueOf_zeros_append (n : Nat) (cs : List Char) :
    valueOf (List.replicate n '0' ++ cs) = valueOf cs := by
  rw [valueOf_eq, Nat.ofDigitChars_append, Nat.ofDigitChars_replicate_zero, Nat.mul_zero]
  rfl

/-- Zeros behind are factors of ten. -/
theorem valueOf_append_zeros (n : Nat) (cs : List Char) :
    valueOf (cs ++ List.replicate n '0') = valueOf cs * 10 ^ n := by
  rw [valueOf_eq, Nat.ofDigitChars_append, Nat.ofDigitChars_replicate_zero, Nat.mul_comm]
  rfl

/-! ## Reading digits -/

/-- A string of digits is a numeral without places behind a point. -/
theorem unsigned?_whole (negative : Bool) {cs : List Char} (h : AllDigits cs) (hne : cs ≠ []) :
    unsigned? negative cs = some ⟨negative, valueOf cs, 0⟩ := by
  have hwhole := takeWhile_stretch h endsStretch_nil
  have hrest := dropWhile_stretch h endsStretch_nil
  rw [List.append_nil] at hwhole hrest
  unfold unsigned?
  rw [hwhole, hrest]
  dsimp only
  rw [if_neg hne]
  rfl

/-- Digits on both sides of a point are a numeral with places behind it. -/
theorem unsigned?_point (negative : Bool) {whole fraction : List Char} (hwhole : AllDigits whole)
    (hfraction : AllDigits fraction) (hne : whole ≠ []) :
    unsigned? negative (whole ++ '.' :: fraction)
      = some ⟨negative, valueOf (whole ++ fraction), -(fraction.length : Int)⟩ := by
  have hpoint : EndsStretch isDigit ('.' :: fraction) := rfl
  have htaken := takeWhile_stretch hwhole hpoint
  have hrest := dropWhile_stretch hwhole hpoint
  have htaken' := takeWhile_stretch hfraction endsStretch_nil
  have hrest' := dropWhile_stretch hfraction endsStretch_nil
  rw [List.append_nil] at htaken' hrest'
  unfold unsigned?
  simp only [htaken, hrest, htaken', hrest']
  rw [if_neg fun h => hne h.1]
  simp [exponent?]

/-- A sign in front, where there is one, is taken off. -/
theorem ofChars?_sign (negative : Bool) {c : Char} {cs : List Char} (hc : isDigit c = true) :
    ofChars? ((if negative then ['-'] else []) ++ c :: cs) = unsigned? negative (c :: cs) := by
  have hminus : c ≠ '-' := by rintro rfl; exact absurd hc (by decide)
  have hplus : c ≠ '+' := by rintro rfl; exact absurd hc (by decide)
  unfold ofChars?
  cases negative
  · have hsplit : splitSign (c :: cs) = (false, c :: cs) := by
      unfold splitSign
      split
      · next heq => exact absurd (List.cons.inj heq).1 hminus
      · next heq => exact absurd (List.cons.inj heq).1 hplus
      · rfl
    simp [hsplit]
  · rfl

/-- Zeros written out behind a whole number change nothing, on either side of a point. -/
theorem ReadsAs.of_whole {negative : Bool} {digits position places : Nat} {exponent : Int}
    (h : ReadsAs ⟨negative, digits, exponent⟩ position) (hexponent : 0 ≤ exponent)
    (hplaces : places ≤ 350) :
    ReadsAs ⟨negative, digits * 10 ^ (exponent.toNat + places), -(places : Int)⟩ position := by
  obtain ⟨hnonzero, -, hrounds⟩ := h
  have hfactor : (10 : Nat) ^ (exponent.toNat + places) ≠ 0 := by simp
  refine ⟨Nat.mul_ne_zero hnonzero hfactor, by dsimp only; omega, ?_⟩
  dsimp only at hrounds ⊢
  rw [show (-exponent).toNat = 0 by omega] at hrounds
  rw [show (-(places : Int)).toNat = 0 by omega, show (-(-(places : Int))).toNat = places by omega]
  refine hrounds.of_quotient (by simp) (Nat.pow_pos (by omega)) ?_
  rw [Nat.pow_add]
  ring

end Decimal

/-! ## Plain text -/

namespace Layout

open Decimal (AllDigits allDigits_zeros valueOf valueOf_toDigits valueOf_zeros_append
  valueOf_append_zeros unsigned?_whole unsigned?_point)

/-- The characters of digits with the point after `point` of them. -/
theorem toList_positionalText (layout : Layout) (digits : List Char) (point : Int) :
    (layout.positionalText digits point).toList =
      if point ≤ 0 then '0' :: '.' :: (List.replicate (-point).toNat '0' ++ digits)
      else if digits.length ≤ point then
        digits ++ List.replicate (point - digits.length).toNat '0' ++ layout.wholeMark.toList
      else digits.take point.toNat ++ '.' :: digits.drop point.toNat := by
  unfold positionalText
  dsimp only
  split
  · simp
  · split
    · simp
    · simp

/-- The characters of a finite number. -/
theorem toList_finite (layout : Layout) (x : Float) : (layout.finite x).toList
    = (if isNegative x then ['-'] else []) ++ (layout.magnitude (positionOf x)).toList := by
  unfold finite
  rw [String.toList_append]
  cases isNegative x <;> rfl

theorem toList_wholeMark_plain : plain.wholeMark.toList = [] := rfl

/-- Positional digits are a numeral that reads as the position that the digits read as. -/
theorem readsAs_positionalText {layout : Layout}
    (hmark : layout.wholeMark = "" ∨ layout.wholeMark = ".0") (negative : Bool)
    {digits position : Nat} {exponent : Int}
    (h : Decimal.ReadsAs ⟨negative, digits, exponent⟩ position) :
    ∃ d : Decimal, Decimal.unsigned? negative (layout.positionalText (Nat.toDigits 10 digits)
        (exponent + (Nat.toDigits 10 digits).length)).toList = some d ∧
      d.negative = negative ∧ d.ReadsAs position := by
  have hdigits := Decimal.allDigits_toDigits digits
  have hvalue := valueOf_toDigits digits
  have hne : Nat.toDigits 10 digits ≠ [] := Nat.toDigits_ne_nil
  rw [toList_positionalText]
  generalize Nat.toDigits 10 digits = chars at hdigits hvalue hne
  split
  · next hsmall =>
    -- zeros between the point and the digits
    have hplaces := unsigned?_point negative (allDigits_zeros 1)
      ((allDigits_zeros (-(exponent + chars.length)).toNat).append hdigits) (by simp)
    refine ⟨_, hplaces, rfl, ?_⟩
    rw [valueOf_zeros_append, valueOf_zeros_append, hvalue, List.length_append, List.length_replicate]
    rw [show -(((-(exponent + chars.length)).toNat + chars.length : Nat) : Int) = exponent by omega]
    exact h
  · split
    · next hpositive hlarge =>
      -- zeros behind the digits, and perhaps one behind a point
      have hzeros : exponent + chars.length - chars.length = exponent := by omega
      have hall := hdigits.append (allDigits_zeros exponent.toNat)
      rw [hzeros]
      rcases hmark with hmark | hmark
      · have hwhole := unsigned?_whole negative hall (by simp [hne])
        rw [hmark, String.toList_empty, List.append_nil]
        refine ⟨_, hwhole, rfl, ?_⟩
        rw [valueOf_append_zeros, hvalue]
        exact h.of_whole (by omega) (Nat.zero_le 350)
      · have hplaces := unsigned?_point negative hall (allDigits_zeros 1) (by simp [hne])
        rw [hmark]
        refine ⟨_, hplaces, rfl, ?_⟩
        rw [List.append_assoc, List.replicate_append_replicate, valueOf_append_zeros, hvalue]
        exact h.of_whole (by omega) (by omega)
    · next hpositive hinside =>
      have hplaces := unsigned?_point negative (hdigits.take (exponent + chars.length).toNat)
        (hdigits.drop (exponent + chars.length).toNat) (by simp [hne]; omega)
      refine ⟨_, hplaces, rfl, ?_⟩
      rw [List.take_append_drop, hvalue, List.length_drop]
      rw [show -((chars.length - (exponent + chars.length).toNat : Nat) : Int) = exponent by omega]
      exact h

/-- Plain digits start with a digit and have nothing but digits and points. -/
theorem positionalText_chars {digits : List Char} (hdigits : AllDigits digits)
    (hne : digits ≠ []) (point : Int) :
    (∃ c rest, (plain.positionalText digits point).toList = c :: rest ∧ Decimal.isDigit c = true) ∧
      ∀ c ∈ (plain.positionalText digits point).toList, Decimal.isDigit c = true ∨ c = '.' := by
  obtain ⟨first, rest, rfl⟩ := List.exists_cons_of_ne_nil hne
  have hfirst : Decimal.isDigit first = true := hdigits first (List.mem_cons_self ..)
  rw [toList_positionalText, toList_wholeMark_plain, List.append_nil]
  split
  · refine ⟨⟨'0', _, rfl, rfl⟩, fun c hc => ?_⟩
    rcases List.mem_cons.mp hc with rfl | hc
    · exact Or.inl rfl
    · rcases List.mem_cons.mp hc with rfl | hc
      · exact Or.inr rfl
      · exact Or.inl ((allDigits_zeros _).append hdigits c hc)
  · split
    · exact ⟨⟨first, _, rfl, hfirst⟩, fun c hc => Or.inl (hdigits.append (allDigits_zeros _) c hc)⟩
    · next hpositive hinside =>
      obtain ⟨before, hbefore⟩ : ∃ before, point.toNat = before + 1 := ⟨point.toNat - 1, by omega⟩
      refine ⟨⟨first, _, by rw [hbefore, List.take_succ_cons, List.cons_append], hfirst⟩, ?_⟩
      intro c hc
      rcases List.mem_append.mp hc with hc | hc
      · exact Or.inl (hdigits.take _ c hc)
      · rcases List.mem_cons.mp hc with rfl | hc
        · exact Or.inr rfl
        · exact Or.inl (hdigits.drop _ c hc)

/-- The plain text of a position: what it starts with, what is in it and how it reads. -/
theorem plain_magnitude (negative : Bool) {position : Nat} (hfinite : position < infinity) :
    (∃ c rest, (plain.magnitude position).toList = c :: rest ∧ Decimal.isDigit c = true) ∧
      (∀ c ∈ (plain.magnitude position).toList, Decimal.isDigit c = true ∨ c = '.') ∧
      ∃ d, Decimal.unsigned? negative (plain.magnitude position).toList = some d ∧
        d.negative = negative ∧ d.position = position := by
  unfold magnitude
  split
  · next hzero =>
    subst hzero
    refine ⟨⟨'0', [], rfl, rfl⟩, ?_, ⟨negative, 0, 0⟩, rfl, rfl, rfl⟩
    intro c hc
    obtain rfl : c = '0' := List.mem_singleton.mp hc
    exact Or.inl rfl
  · next hnonzero =>
    have hreads := shortest_readsAs plain.tie negative (Nat.pos_of_ne_zero hnonzero)
    have hmark : plain.wholeMark = "" ∨ plain.wholeMark = ".0" := Or.inl rfl
    obtain ⟨d, hd, hsign, hposition⟩ := readsAs_positionalText hmark negative hreads
    obtain ⟨hfirst, hchars⟩ := positionalText_chars (Decimal.allDigits_toDigits _)
      Nat.toDigits_ne_nil
      ((shortest plain.tie position).2 + (Nat.toDigits 10 (shortest plain.tie position).1).length)
    exact ⟨hfirst, hchars, d, hd, hsign, hposition.position_eq hfinite⟩

end Layout

namespace Number

theorem toList_text_of_finite {x : Float} (hfinite : isFinite x = true) :
    (text x).toList = (if isNegative x then ['-'] else [])
      ++ (Layout.plain.magnitude (positionOf x)).toList := by
  unfold text Layout.write
  rw [if_pos hfinite]
  exact Layout.toList_finite Layout.plain x

/-- **The plain text of a finite number reads back** as the number. -/
theorem readsBack {x : Float} (hfinite : isFinite x = true) :
    ∃ d, Decimal.ofChars? (text x).toList = some d ∧ d.toFloat = x := by
  have hposition : positionOf x < infinity := of_decide_eq_true hfinite
  obtain ⟨⟨c, rest, hchars, hc⟩, -, d, hd, hsign, hvalue⟩ :=
    Layout.plain_magnitude (isNegative x) hposition
  refine ⟨d, ?_, ?_⟩
  · rw [toList_text_of_finite hfinite, hchars, Decimal.ofChars?_sign _ hc, ← hchars, hd]
  · unfold Decimal.toFloat
    rw [hsign, hvalue, Binary64.toFloat_positionOf]

/-- The characters of the plain text of a finite number. -/
theorem text_chars {x : Float} (hfinite : isFinite x = true) :
    (text x).toList ≠ [] ∧
      ∀ c ∈ (text x).toList, Decimal.isDigit c = true ∨ c = '.' ∨ c = '-' := by
  have hposition : positionOf x < infinity := of_decide_eq_true hfinite
  obtain ⟨⟨c, rest, hchars, -⟩, hall, -⟩ := Layout.plain_magnitude (isNegative x) hposition
  rw [toList_text_of_finite hfinite]
  refine ⟨by simp [hchars], fun c hc => ?_⟩
  rcases List.mem_append.mp hc with hc | hc
  · cases hsign : isNegative x with
    | false =>
      rw [hsign] at hc
      cases hc
    | true =>
      rw [hsign] at hc
      exact Or.inr (Or.inr (List.mem_singleton.mp hc))
  · rcases hall c hc with hdigit | hpoint
    · exact Or.inl hdigit
    · exact Or.inr (Or.inl hpoint)

end Number

end Colloquy
