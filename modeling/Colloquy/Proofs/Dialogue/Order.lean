import Colloquy.Proofs.Dialogue.Denotation
import Mathlib.Data.List.Perm.Basic

/-!
# The order of the forms

A dialogue says which labels there are, each under its name, and where it starts, and neither
depends on the order in which the forms of the program stand. Main statement,
`Program.built_in_any_order`: two lists with the same forms give the same program with the same
remarks, or are both refused, and so do two sets of files whose forms are the same taken together,
however the files are named and the forms are spread over them.

The compiler reads the forms one after another and stops at the first that it cannot take, so what
it complains of does depend on the order. That it complains does not: a program is accepted when it
denotes a dialogue, and denoting is a matter of the parts of the program as a whole.
-/

namespace Colloquy

variable {forms forms' : List Expr}

/-- The parts of a reordered program are its parts, reordered like the forms. -/
theorem IsProgram.perm {parts : List ProgramPart} {initial : String}
    (h : IsProgram forms parts initial) (hperm : forms'.Perm forms) :
    ∃ parts', IsProgram forms' parts' initial ∧ parts'.Perm parts := by
  obtain ⟨parts', hforms, hparts⟩ := List.perm_comp_forall₂ hperm h.forms
  have hlabels := hparts.filterMap ProgramPart.label?
  have hstart := hparts.filterMap ProgramPart.start?
  rw [h.start, List.perm_singleton] at hstart
  obtain ⟨label, hlabel, hname⟩ := h.declared
  refine ⟨parts', ⟨hforms, hstart, ?_, label, hlabels.mem_iff.mpr hlabel, hname⟩, hparts⟩
  exact (hlabels.map (·.name)).nodup_iff.mpr h.distinct

theorem Denotes.perm {d : Dialogue} (h : Denotes forms d) (hperm : forms'.Perm forms) :
    Denotes forms' d := by
  obtain ⟨parts, hprogram, hfinds⟩ := h
  obtain ⟨parts', hprogram', hparts⟩ := hprogram.perm hperm
  refine ⟨parts', hprogram', ?_⟩
  intro name label
  rw [hfinds, (hparts.filterMap ProgramPart.label?).mem_iff]

theorem compileForms_perm (hperm : forms.Perm forms') (d : Dialogue) :
    compileForms forms = .ok d ↔ compileForms forms' = .ok d := by
  rw [compileForms_eq_ok, compileForms_eq_ok]
  constructor
  · intro h
    exact h.perm hperm.symm
  · intro h
    exact h.perm hperm

namespace Program

/-- Checking the targets and collecting the remarks look at the dialogue alone. -/
theorem ofForms_perm (strict : Bool) (hperm : forms.Perm forms') (program : Program) :
    ofForms strict forms = .ok program ↔ ofForms strict forms' = .ok program := by
  unfold ofForms
  rw [bind_eq_ok, bind_eq_ok]
  exact exists_congr fun d => and_congr_left' (compileForms_perm hperm d)

/-- **The order of the forms and the way they are spread over files do not matter.** Reordered forms
give the same program, remarks included, or are refused like the forms as they stood. So do files
that can all be read and have the same forms taken together. -/
theorem built_in_any_order (strict : Bool) :
    (∀ forms forms' : List Expr, forms.Perm forms' →
      ∀ program, ofForms strict forms = .ok program ↔ ofForms strict forms' = .ok program) ∧
    ∀ (sources sources' : NameMap String) (forms forms' : List Expr), Reads sources forms →
      Reads sources' forms' → forms.Perm forms' →
      ∀ program, ofSources strict sources = .ok program ↔ ofSources strict sources' = .ok program := by
  constructor
  · intro forms forms' hperm
    exact ofForms_perm strict hperm
  · intro sources sources' forms forms' hreads hreads' hperm program
    rw [hreads.ofSources, hreads'.ofSources, mapError_eq_ok, mapError_eq_ok]
    exact ofForms_perm strict hperm program

/-- A room in one file, and in two files with its start form before it. -/
theorem built_in_any_order_room :
    let room := Expr.list [.symbol "label", .symbol "room", .list [.symbol "text", .text "A room."]]
    let start := Expr.list [.symbol "start-dialogue", .symbol "room"]
    let sources := NameMap.ofList [("all", "(label room (text \"A room.\"))\n(start-dialogue room)")]
    let sources' := NameMap.ofList
      [("first", "(start-dialogue room)"), ("rooms", "(label room (text \"A room.\"))")]
    Reads sources [room, start] ∧ Reads sources' [start, room] ∧
      ofSources true sources' = .ok ⟨⟨"room", .ofList [("room", ⟨"room", "A room.", none, none⟩)]⟩, []⟩ := by
  intro room start sources sources'
  have hreads : Reads sources [room, start] := ⟨[[room, start]], .cons (by with_unfolding_all rfl) .nil, rfl⟩
  have hreads' : Reads sources' [start, room] :=
    ⟨[[start], [room]], .cons (by with_unfolding_all rfl) (.cons (by with_unfolding_all rfl) .nil), rfl⟩
  have hbuilt : ofSources true sources =
      .ok ⟨⟨"room", .ofList [("room", ⟨"room", "A room.", none, none⟩)]⟩, []⟩ := by
    rw [hreads.ofSources]
    rfl
  obtain ⟨-, hsources⟩ := built_in_any_order true
  have hsame := hsources sources sources' [room, start] [start, room] hreads hreads' (.swap _ _ _)
  exact ⟨hreads, hreads', (hsame _).mp hbuilt⟩

end Program

end Colloquy
