import Colloquy.NameMap
import Mathlib.Data.List.Basic
import Mathlib.Order.Basic

/-!
# The order of texts is that of their bytes

Texts are compared character by character, by code point. A character with a larger code point has
UTF-8 bytes that come later, and this is settled within them, whatever follows: a longer form has the
larger first byte, and forms of one length are the digits of the code point to the base 64. So the
bytes of texts compare as the texts do (`utf8_lt_iff`).
-/

namespace Colloquy

/-- The UTF-8 bytes of a text. -/
def utf8 (s : String) : List UInt8 := s.toUTF8.data.toList

theorem utf8_eq (s : String) : utf8 s = s.toList.flatMap String.utf8EncodeChar := by
  have hbytes : s.toByteArray = (s.toList.flatMap String.utf8EncodeChar).toByteArray := by
    conv_lhs => rw [← String.ofList_toList (s := s)]
    rfl
  rw [utf8, String.toUTF8_eq_toByteArray, hbytes, List.toList_data_toByteArray]

theorem cons_ofNat_lt_iff {m n : Nat} (hm : m < 256) (hn : n < 256) {xs ys : List UInt8} :
    UInt8.ofNat m :: xs < UInt8.ofNat n :: ys ↔ m < n ∨ m = n ∧ xs < ys := by
  have hm' : (UInt8.ofNat m).toNat = m := UInt8.toNat_ofNat_of_lt hm
  have hn' : (UInt8.ofNat n).toNat = n := UInt8.toNat_ofNat_of_lt hn
  rw [List.cons_lt_cons_iff, UInt8.lt_iff_toNat_lt, ← UInt8.toNat_inj, hm', hn']

/-- The bytes of a smaller character come first, whatever follows either. -/
theorem utf8EncodeChar_append_lt {c d : Char} (h : c < d) (xs ys : List UInt8) :
    String.utf8EncodeChar c ++ xs < String.utf8EncodeChar d ++ ys := by
  have hlt : c.val.toNat < d.val.toNat := UInt32.lt_iff_toNat_lt.mp h
  have hbound : d.val.toNat < 0x110000 := by
    rcases d.valid with hlow | ⟨-, hhigh⟩
    · have : d.val.toNat < 0xD800 := hlow
      omega
    · exact hhigh
  unfold String.utf8EncodeChar
  generalize c.val.toNat = v at *
  generalize d.val.toNat = w at *
  -- the larger divisors as digits to the base 64
  have hthird (n : Nat) : n / 4096 = n / 64 / 64 := by omega
  have hfourth (n : Nat) : n / 262144 = n / 64 / 64 / 64 := by omega
  dsimp only
  -- one case for each pair of lengths
  split_ifs <;>
    simp (disch := omega) only [List.cons_append, List.nil_append, cons_ofNat_lt_iff, hthird,
      hfourth] <;>
    omega

theorem flatMap_utf8EncodeChar_lt : ∀ {cs ds : List Char}, cs < ds →
    cs.flatMap String.utf8EncodeChar < ds.flatMap String.utf8EncodeChar
  | [], [], h => absurd h (List.lt_irrefl [])
  | [], d :: ds, _ => by
    have hbytes : String.utf8EncodeChar d ≠ [] := List.length_pos_iff.mp (by
      rw [String.length_utf8EncodeChar]
      exact d.utf8Size_pos)
    obtain ⟨b, bs, hd⟩ := List.exists_cons_of_ne_nil hbytes
    rw [List.flatMap_cons, hd]
    exact List.nil_lt_cons ..
  | c :: cs, [], h => absurd h (List.not_lt_nil _)
  | c :: cs, d :: ds, h => by
    rw [List.flatMap_cons, List.flatMap_cons]
    rcases List.cons_lt_cons_iff.mp h with hlt | ⟨rfl, hlt⟩
    · exact utf8EncodeChar_append_lt hlt _ _
    · exact List.append_left_lt (flatMap_utf8EncodeChar_lt hlt)

/-- **Texts compare as their bytes do.** -/
theorem utf8_lt_iff {s t : String} : utf8 s < utf8 t ↔ s < t := by
  have hlt {s t : String} (h : s < t) : utf8 s < utf8 t := by
    rw [utf8_eq, utf8_eq]
    exact flatMap_utf8EncodeChar_lt (String.lt_iff.mp h)
  constructor
  · intro h
    -- the other two orders of the texts would have the bytes in another order, too
    by_contra hnot
    by_cases hsame : s = t
    · rw [hsame] at h
      exact List.lt_irrefl _ h
    · exact List.lt_asymm h (hlt (NameMap.lt_of_not_lt hsame hnot))
  · exact hlt

end Colloquy
