import Colloquy.Dialogue.Program
import Colloquy.Playthrough

/-!
# Playing from script files

A playthrough is made from the files of a program, to begin with or at the place of a snapshot.
Coming back is always lenient: a snapshot does not say how strictly the program was built.
-/

namespace Colloquy.Playthrough

variable {κ σ : Type}

/-- A playthrough at the first label of the program in some files. -/
def startFrom (h : Host κ σ) (strict : Bool) (sources : NameMap String) (indexing : Indexing) :
    Action σ Playthrough := do
  let program ← Action.ofExcept (Program.ofSources strict sources)
  start h program.dialogue indexing

/-- A playthrough at the place of a snapshot in the program in some files. -/
def resumeFrom (h : Host κ σ) (sources : NameMap String) (snapshot : Snapshot) :
    Action σ Playthrough := do
  let program ← Action.ofExcept (Program.ofSources false sources)
  resume h program.dialogue snapshot

end Colloquy.Playthrough
