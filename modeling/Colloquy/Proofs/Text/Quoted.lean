import Colloquy.Proofs.Action
import Colloquy.Text.Quoted

/-!
# What literals stand for

`StandsFor inside text` is the grammar of what stands between the quotes of a literal: plain
characters, and pairs of a backslash and another character. No quote is plain, so a literal is closed
by the first quote that is not the second character of a pair.

Main statements: reading finds the inside, the text and what is left behind the closing quote
(`body_eq_ok`), and it fails just where no quote closes the literal (`exists_body_eq_error`).
-/

namespace Colloquy.Quoted

/-- What stands inside a literal, and the text it stands for. -/
inductive StandsFor : List Char → List Char → Prop
  | nil : StandsFor [] []
  | plain {c : Char} {inside text : List Char} (hquote : c ≠ '"') (hbackslash : c ≠ '\\')
      (rest : StandsFor inside text) : StandsFor (c :: inside) (c :: text)
  | quote {inside text : List Char} (rest : StandsFor inside text) :
      StandsFor ('\\' :: '"' :: inside) ('"' :: text)
  | backslash {inside text : List Char} (rest : StandsFor inside text) :
      StandsFor ('\\' :: '\\' :: inside) ('\\' :: text)
  | lineFeed {inside text : List Char} (rest : StandsFor inside text) :
      StandsFor ('\\' :: 'n' :: inside) ('\n' :: text)
  | tab {inside text : List Char} (rest : StandsFor inside text) :
      StandsFor ('\\' :: 't' :: inside) ('\t' :: text)
  /-- Any other pair stands for itself. -/
  | pair {c : Char} {inside text : List Char} (hother : c ∉ ['"', '\\', 'n', 't'])
      (rest : StandsFor inside text) : StandsFor ('\\' :: c :: inside) ('\\' :: c :: text)

/-- Whether some quote closes a literal that the text is behind the opening quote of. -/
def Closes (cs : List Char) : Prop :=
  ∃ inside text left, cs = inside ++ '"' :: left ∧ StandsFor inside text

theorem decodePair_of_other {c : Char} (h : c ∉ ['"', '\\', 'n', 't']) : decodePair c = ['\\', c] := by
  simp only [List.mem_cons, List.not_mem_nil, or_false, not_or] at h
  unfold decodePair
  split <;> simp_all

/-- Every pair stands for what it is decoded to. -/
theorem StandsFor.escape {inside text : List Char} (h : StandsFor inside text) (c : Char) :
    StandsFor ('\\' :: c :: inside) (decodePair c ++ text) := by
  by_cases hother : c ∈ ['"', '\\', 'n', 't']
  · simp only [List.mem_cons, List.not_mem_nil, or_false] at hother
    obtain rfl | rfl | rfl | rfl := hother
    · exact .quote h
    · exact .backslash h
    · exact .lineFeed h
    · exact .tab h
  · rw [decodePair_of_other hother]
    exact .pair hother h

theorem body_pair (c : Char) (rest : List Char) : body ('\\' :: c :: rest)
    = (body rest).map fun (text, left) => (decodePair c ++ text, left) := by
  rw [body]

/-- What stands inside a literal is read up to the quote behind it. -/
theorem StandsFor.body {inside text : List Char} (h : StandsFor inside text) (left : List Char) :
    body (inside ++ '"' :: left) = .ok (text, left) := by
  induction h with
  | nil => rfl
  | plain hquote hbackslash _ ih =>
    rw [List.cons_append, body_cons hquote hbackslash, ih]
    rfl
  | quote _ ih | backslash _ ih | lineFeed _ ih | tab _ ih =>
    rw [List.cons_append, List.cons_append, body_pair, ih]
    rfl
  | pair hother _ ih =>
    rw [List.cons_append, List.cons_append, body_pair, ih, decodePair_of_other hother]
    rfl

theorem exists_of_body {cs text left : List Char} (h : body cs = .ok (text, left)) :
    ∃ inside, cs = inside ++ '"' :: left ∧ StandsFor inside text := by
  fun_induction body cs generalizing text with
  | case1 => cases h
  | case2 rest =>
    cases h
    exact ⟨[], rfl, .nil⟩
  | case3 => cases h
  | case4 c rest ih =>
    obtain ⟨⟨text, left⟩, hrest, h⟩ := map_eq_ok.mp h
    cases h
    obtain ⟨inside, rfl, hinside⟩ := ih hrest
    exact ⟨'\\' :: c :: inside, rfl, hinside.escape c⟩
  | case5 c rest hquote hlast hescape ih =>
    obtain ⟨⟨text, left⟩, hrest, h⟩ := map_eq_ok.mp h
    cases h
    obtain ⟨inside, rfl, hinside⟩ := ih hrest
    have hbackslash : c ≠ '\\' := by
      intro hc
      cases inside with
      | nil => exact hescape '"' left hc rfl
      | cons next inside => exact hescape next (inside ++ '"' :: left) hc rfl
    exact ⟨c :: inside, rfl, .plain hquote hbackslash hinside⟩

/-- Reading a literal finds its closing quote, and the text that is in front of it. -/
theorem body_eq_ok {cs text left : List Char} :
    body cs = .ok (text, left) ↔ ∃ inside, cs = inside ++ '"' :: left ∧ StandsFor inside text := by
  constructor
  · intro h
    exact exists_of_body h
  · intro h
    obtain ⟨inside, rfl, hinside⟩ := h
    exact hinside.body left

/-- Reading a literal fails where no quote closes it. -/
theorem exists_body_eq_error {cs : List Char} : (∃ cause, body cs = .error cause) ↔ ¬ Closes cs := by
  cases hbody : body cs with
  | ok read =>
    obtain ⟨text, left⟩ := read
    obtain ⟨inside, hcs, hinside⟩ := body_eq_ok.mp hbody
    exact iff_of_false (fun herror => by cases herror.choose_spec) fun hopen =>
      hopen ⟨inside, text, left, hcs, hinside⟩
  | error cause =>
    refine iff_of_true ⟨cause, rfl⟩ fun hcloses => ?_
    obtain ⟨inside, text, left, hcs, hinside⟩ := hcloses
    rw [body_eq_ok.mpr ⟨inside, hcs, hinside⟩] at hbody
    cases hbody

end Colloquy.Quoted
