import Colloquy.Dialogue.Diagnostic
import Colloquy.Dialogue.Grammar
import Colloquy.Expr.Reader

/-!
# From script text to dialogues

A program is the forms of all its files, taken in the order of the paths. Building is *strict*
when every target must be a declared label, and lenient otherwise; either way the remarks on the
dialogue come with it.
-/

namespace Colloquy

/-- A dialogue and the remarks on it. -/
structure Program where
  dialogue : Dialogue
  diagnostics : List Diagnostic

namespace Program

/-- Builds a program from its forms. -/
def ofForms (strict : Bool) (forms : List Expr) : Except GrammarFault Program := do
  let dialogue ← compileForms forms
  if strict then dialogue.checkTargets else .ok ()
  .ok ⟨dialogue, dialogue.diagnostics⟩

/-- Builds a program from one text. -/
def ofSource (strict : Bool) (source : String) : Except Fault Program := do
  let forms ← (readSource source).mapError .reading
  (ofForms strict forms).mapError .grammar

/-- The forms of a file. -/
def formsOfFile (file : String × String) : Except Fault (List Expr) :=
  (readSource file.2).mapError (.inFile file.1)

/-- Builds a program from files, by path. -/
def ofSources (strict : Bool) (sources : NameMap String) : Except Fault Program := do
  let forms ← sources.entries.mapM formsOfFile
  (ofForms strict forms.flatten).mapError .grammar

end Program

end Colloquy
