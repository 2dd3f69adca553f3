import Colloquy.Proofs.Dialogue.Denotation
import Colloquy.Proofs.Expr.RoundTrip
import Colloquy.Proofs.NameMap

/-!
# The names of labels

The name of a label is a symbol of the program's text, so it has none of the characters that end an
atom: no blank, no quote, no parenthesis and no semicolon, and it is not empty. Main statement,
`Program.isSymbol_of_contains`.
-/

namespace Colloquy

/-- The name of a label stands in its form. -/
theorem IsLabel.name_mem_atoms {form : Expr} {label : Label} (h : IsLabel form label) :
    .symbol label.name ∈ form.atoms := by
  cases h with
  | @label name text after forms parts =>
    show Expr.symbol name ∈ Expr.atoms (.symbol "label") ++ (Expr.atoms (.symbol name) ++ Expr.atomsAll forms)
    exact List.mem_append_right _ (List.mem_append_left _ (List.mem_singleton_self _))

/-- A declared label is the part of a form. -/
theorem IsProgram.exists_form {forms : List Expr} {parts : List ProgramPart} {initial : String}
    (h : IsProgram forms parts initial) {label : Label}
    (hlabel : label ∈ parts.filterMap ProgramPart.label?) : ∃ form ∈ forms, IsLabel form label := by
  obtain ⟨part, hpart, hdeclared⟩ := List.mem_filterMap.mp hlabel
  obtain ⟨form, hform, hstands⟩ := exists_of_forall₂ h.forms hpart
  cases hstands with
  | label hform' =>
    cases hdeclared
    exact ⟨form, hform, hform'⟩
  | start name => cases hdeclared

namespace Program

variable {strict : Bool} {sources : NameMap String} {program : Program}

/-- The forms of a program that was read have symbols that were read. -/
theorem legible_of_files {files : List (List Expr)}
    (h : sources.entries.mapM formsOfFile = .ok files) : Expr.Legible (Expr.atomsAll files.flatten) := by
  refine Expr.legible_atomsAll.mpr fun form hform => ?_
  obtain ⟨read, hread, hform⟩ := List.mem_flatten.mp hform
  obtain ⟨file, -, hfile⟩ := exists_of_forall₂ (mapM_eq_ok.mp h) hread
  exact Expr.legible_atomsAll.mp (Expr.legible_of_read (mapError_eq_ok.mp hfile)) form hform

/-- **The name of a label is a symbol.** -/
theorem isSymbol_of_contains (h : ofSources strict sources = .ok program) {name : String}
    (hname : program.dialogue.labels.contains name = true) : Expr.IsSymbol name := by
  obtain ⟨files, hfiles, hprogram⟩ := ofSources_eq_ok.mp h
  obtain ⟨parts, hparts, hfinds⟩ := compileForms_eq_ok.mp (compileForms_of_ofForms hprogram)
  obtain ⟨label, hlabel⟩ := Option.isSome_iff_exists.mp hname
  obtain ⟨hdeclared, rfl⟩ := (hfinds name label).mp hlabel
  obtain ⟨form, hform, hlabelForm⟩ := hparts.exists_form hdeclared
  exact legible_of_files hfiles label.name (Expr.mem_atomsAll.mpr ⟨form, hform, hlabelForm.name_mem_atoms⟩)

theorem newline_not_mem_label (h : ofSources strict sources = .ok program) {name : String}
    (hname : program.dialogue.labels.contains name = true) : '\n' ∉ name.toList := by
  intro hmem
  obtain ⟨⟨-, hchars⟩, -⟩ := isSymbol_of_contains h hname
  have hatom := hchars '\n' hmem
  revert hatom
  decide

end Program

end Colloquy
