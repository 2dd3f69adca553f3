import Colloquy.Fault
import Colloquy.NameMap

/-!
# Dialogues

A dialogue is a set of named labels, one of them the first. A label shows a prompt; it either
offers choices, each leading to another label and perhaps only on a condition, or continues by
running the code of its after block and going on to that block's target, if it names one.
-/

namespace Colloquy

/-- A way out of a label that the player can pick. -/
structure Choice where
  text : String
  target : String
  /-- Where given, the choice is offered only while this evaluates above zero. -/
  condition : Option Expr

/-- What happens when a label without choices is left. -/
structure After where
  code : List Expr
  /-- The next label; without one the dialogue ends. -/
  target : Option String

/-- A place in a dialogue. -/
structure Label where
  name : String
  text : String
  /-- The declared choices; none if the label declares no choice at all. -/
  choices : Option (List Choice)
  after : Option After

/-- Labels by name, and the name of the first. -/
structure Dialogue where
  initial : String
  labels : NameMap Label

namespace Label

/-- Every label that this one can lead to, in the order of declaration. -/
def targets (label : Label) : List String :=
  (label.choices.getD []).map (·.target) ++ (label.after.bind (·.target)).toList

/-- Whether the label declares choices. -/
def offersChoices (label : Label) : Bool := label.choices.isSome

end Label

namespace Dialogue

/-- The label with the given name. -/
def label? (d : Dialogue) (name : String) : Option Label := d.labels.find? name

/-- The labels, in the order of the names they are filed under. -/
def labelList (d : Dialogue) : List Label := d.labels.entries.map (·.2)

/-- Refuses a dialogue in which some label leads to one that is not declared, and names the first
such label and target. -/
def checkTargets (d : Dialogue) : Except GrammarFault Unit :=
  d.labelList.forM fun label => label.targets.forM fun target =>
    if d.labels.contains target then .ok () else .error (.undeclaredTarget label.name target)

end Dialogue

end Colloquy
