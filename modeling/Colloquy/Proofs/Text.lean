/-!
# Stretches of text

A stretch of characters with a property ends where the next one lacks it.
-/

namespace Colloquy

/-- Whether a text does not start with a character that has the property. -/
def EndsStretch (p : Char → Bool) (rest : List Char) : Prop :=
  rest.head?.all (fun c => !p c) = true

section Stretch

variable {p : Char → Bool} {cs rest : List Char}

@[simp] theorem endsStretch_nil : EndsStretch p [] := rfl

@[simp] theorem endsStretch_cons {c : Char} : EndsStretch p (c :: rest) ↔ p c = false := by
  simp [EndsStretch]

variable (h : ∀ c ∈ cs, p c = true) (hrest : EndsStretch p rest)

include h hrest

theorem takeWhile_stretch : (cs ++ rest).takeWhile p = cs := by
  rw [List.takeWhile_append_of_pos h]
  cases rest with
  | nil => simp
  | cons c rest => simp [endsStretch_cons.mp hrest]

theorem dropWhile_stretch : (cs ++ rest).dropWhile p = rest := by
  rw [List.dropWhile_append_of_pos h]
  cases rest with
  | nil => simp
  | cons c rest => simp [endsStretch_cons.mp hrest]

end Stretch

theorem endsStretch_dropWhile (p : Char → Bool) (cs : List Char) : EndsStretch p (cs.dropWhile p) := by
  have hhead := List.head?_dropWhile_not p cs
  unfold EndsStretch
  cases h : (cs.dropWhile p).head? with
  | none => rfl
  | some c =>
    rw [h] at hhead
    simp [hhead]

/-! A character without the property ends the stretch of a text in front of it. -/

section Ended

variable {p : Char → Bool} {d : Char} (hd : p d = false) (cs rest : List Char)

include hd

theorem takeWhile_append_ended : (cs ++ d :: rest).takeWhile p = cs.takeWhile p := by
  induction cs with
  | nil => simp [hd]
  | cons c cs ih =>
    rw [List.cons_append, List.takeWhile_cons, List.takeWhile_cons, ih]

theorem dropWhile_append_ended : (cs ++ d :: rest).dropWhile p = cs.dropWhile p ++ d :: rest := by
  induction cs with
  | nil => simp [hd]
  | cons c cs ih =>
    rw [List.cons_append, List.dropWhile_cons, List.dropWhile_cons, ih]
    by_cases hc : p c = true
    · rw [if_pos hc, if_pos hc]
    · rw [if_neg hc, if_neg hc, List.cons_append]

end Ended

end Colloquy
