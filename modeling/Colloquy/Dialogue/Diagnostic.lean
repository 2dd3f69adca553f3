import Colloquy.Dialogue

/-!
# Diagnostics

Two mistakes leave a dialogue playable and are reported beside it: an after block in a label that
offers choices, which never runs, and a target that no label has, which fails when it is reached.
-/

namespace Colloquy

/-- What a diagnostic is about. -/
inductive DiagnosticKind
  | unreachableAfter
  | danglingTarget (target : String)
deriving DecidableEq

/-- A remark on one label. -/
structure Diagnostic where
  label : String
  kind : DiagnosticKind
  message : String
deriving DecidableEq

namespace Diagnostic

/-- The remark on an after block beside choices. -/
def unreachableAfter (label : String) : Diagnostic :=
  ⟨label, .unreachableAfter,
    s!"Label \"{label}\" declares choices and an after block; the after block never runs."⟩

/-- The remark on a target that is not declared. -/
def danglingTarget (label target : String) : Diagnostic :=
  ⟨label, .danglingTarget target, s!"Label \"{label}\" targets undeclared label \"{target}\"."⟩

/-- The remarks on one label of a dialogue. -/
def ofLabel (d : Dialogue) (label : Label) : List Diagnostic :=
  (if label.choices.isSome ∧ label.after.isSome then [unreachableAfter label.name] else []) ++
    (label.targets.filter fun target => !d.labels.contains target).map (danglingTarget label.name)

end Diagnostic

/-- The remarks on a dialogue, label by label. -/
def Dialogue.diagnostics (d : Dialogue) : List Diagnostic :=
  d.labelList.flatMap (Diagnostic.ofLabel d)

end Colloquy
