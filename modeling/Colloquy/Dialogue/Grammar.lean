import Colloquy.Dialogue

/-!
# The grammar of dialogue forms

A program is a sequence of two kinds of forms.

* `(label <name> form...)` declares a label. Its forms are one `(text "...")`, at most one
  `(after ...)` and any number of choices.
* `(start-dialogue <name>)`, once, names the first label.

A choice is `(choice "..." <target> [<condition>])` or has the keywords `jump <target>` and,
optionally, `cond <condition>` in either order. An after block holds at most one
`(body code...)` and at most one `jump <target>` in either order. Code must not use the words of
this grammar as the head of a list, and an assignment must be `(set* <symbol> <expr>)`.
-/

namespace Colloquy

/-- The words of the grammar. -/
def grammarWords : List String :=
  ["label", "text", "choice", "after", "body", "start-dialogue", "jump", "cond"]

/-- The head of an assignment. -/
def assignmentWord : String := "set*"

/-- Whether the items of a list headed by the assignment word make an assignment. -/
def isAssignment : List Expr → Bool
  | [_, .symbol _, _] => true
  | _ => false

/-- Refuses a list that code must not contain, going by its head alone. -/
def checkHead (label : String) (form : Expr) : Except GrammarFault Unit :=
  match form.head? with
  | some head =>
    if head ∈ grammarWords then .error (.grammarInCode label head form)
    else if head = assignmentWord ∧ !isAssignment (form.list?.getD []) then
      .error (.assignmentShape label form)
    else .ok ()
  | none => .ok ()

mutual

/-- Refuses code with a list that code must not contain, outer lists first. -/
def checkCode (label : String) : Expr → Except GrammarFault Unit
  | .list items => do
    checkHead label (.list items)
    checkCodeAll label items
  | _ => .ok ()

/-- Checks pieces of code in turn. -/
def checkCodeAll (label : String) : List Expr → Except GrammarFault Unit
  | [] => .ok ()
  | e :: rest => do
    checkCode label e
    checkCodeAll label rest

end

/-- The target and the condition of a choice in keyword form. -/
def choiceKeywords (label text : String) :
    Option String → Option Expr → List Expr → Except GrammarFault (String × Option Expr)
  | some target, condition, [] => .ok (target, condition)
  | none, _, [] => .error (.choiceTargetMissing label text)
  | _, _, [_] => .error (.choiceValueMissing label text)
  | target, condition, key :: value :: rest =>
    if key.symbol? = some "jump" ∧ target.isNone then
      match value.symbol? with
      | some name => choiceKeywords label text (some name) condition rest
      | none => .error (.choiceJumpKind label text)
    else if key.symbol? = some "cond" ∧ condition.isNone then
      choiceKeywords label text target (some value) rest
    else .error (.choiceKeyword label text key)

/-- Whether what follows the text of a choice is in keyword form. -/
def isKeywordForm : List Expr → Bool
  | key :: _ :: _ => key.symbol? = some "jump" || key.symbol? = some "cond"
  | _ => false

/-- The target and the condition of a choice. -/
def choiceBody (label text : String) (rest : List Expr) :
    Except GrammarFault (String × Option Expr) :=
  if isKeywordForm rest then choiceKeywords label text none none rest
  else match rest with
    | [.symbol target] => .ok (target, none)
    | [.symbol target, condition] => .ok (target, some condition)
    | _ => .error (.choicePositional label text)

/-- The choice with the given items after its head. -/
def compileChoice (label : String) : List Expr → Except GrammarFault Choice
  | .text text :: rest => do
    let (target, condition) ← choiceBody label text rest
    match condition with
    | some condition => checkCode label condition
    | none => .ok ()
    .ok ⟨text, target, condition⟩
  | _ => .error (.choiceTextMissing label)

/-- The after block with the given items after its head, over what was found before them. -/
def afterItems (label : String) :
    Option (List Expr) → Option String → List Expr → Except GrammarFault After
  | code, target, [] => .ok ⟨code.getD [], target⟩
  | code, target, item :: rest =>
    if item.head? = some "body" ∧ code.isNone then do
      let body := (item.list?.getD []).drop 1
      checkCodeAll label body
      afterItems label (some body) target rest
    else if item.symbol? = some "jump" ∧ target.isNone then
      match rest with
      | .symbol name :: rest => afterItems label code (some name) rest
      | _ => .error (.afterJumpKind label)
    else .error (.afterItem label item)

/-- The text of a label, from the items after the head. -/
def compileText (label : String) : List Expr → Except GrammarFault String
  | [.text value] => .ok value
  | _ => .error (.textShape label)

/-- What the forms of a label have declared so far. -/
structure LabelDraft where
  text : Option String
  choices : Option (List Choice)
  after : Option After

/-- Takes one form of a label. -/
def LabelDraft.add (label : String) (draft : LabelDraft) (form : Expr) :
    Except GrammarFault LabelDraft :=
  match form with
  | .list items =>
    match form.head? with
    | some "text" =>
      if draft.text.isSome then .error (.textRepeated label)
      else do
        let text ← compileText label (items.drop 1)
        .ok { draft with text := some text }
    | some "choice" => do
      let choice ← compileChoice label (items.drop 1)
      .ok { draft with choices := some (draft.choices.getD [] ++ [choice]) }
    | some "after" =>
      if draft.after.isSome then .error (.afterRepeated label)
      else do
        let after ← afterItems label none none (items.drop 1)
        .ok { draft with after := some after }
    | _ => .error (.unknownForm label form)
  | _ => .error (.bareAtom label form)

/-- The label with the given items after its head. -/
def compileLabel : List Expr → Except GrammarFault Label
  | [] => .error .labelNameMissing
  | .symbol name :: forms => do
    let draft ← forms.foldlM (LabelDraft.add name) ⟨none, none, none⟩
    match draft.text with
    | some text => .ok ⟨name, text, draft.choices, draft.after⟩
    | none => .error (.textMissing name)
  | found :: _ => .error (.labelNameKind found)

/-- The first label that a start form names, from the items after its head. -/
def compileStart : List Expr → Except GrammarFault String
  | [.symbol name] => .ok name
  | _ => .error .startShape

/-- What the forms of a program have declared so far. -/
structure ProgramDraft where
  labels : NameMap Label
  initial : Option String

/-- Takes one form of a program. -/
def ProgramDraft.add (draft : ProgramDraft) (form : Expr) : Except GrammarFault ProgramDraft :=
  match form with
  | .list items =>
    match form.head? with
    | some "label" => do
      let label ← compileLabel (items.drop 1)
      if draft.labels.contains label.name then .error (.labelRepeated label.name)
      else .ok { draft with labels := draft.labels.insert label.name label }
    | some "start-dialogue" => do
      let name ← compileStart (items.drop 1)
      match draft.initial with
      | some first => .error (.startRepeated first name)
      | none => .ok { draft with initial := some name }
    | _ => .error (.topLevelForm form)
  | _ => .error (.topLevelAtom form)

/-- The dialogue that a program declares; its targets need not be declared labels. -/
def compileForms (forms : List Expr) : Except GrammarFault Dialogue := do
  let draft ← forms.foldlM ProgramDraft.add ⟨.empty, none⟩
  match draft.initial with
  | none => .error .startMissing
  | some initial =>
    if draft.labels.contains initial then .ok ⟨initial, draft.labels⟩
    else .error (.startUndeclared initial)

end Colloquy
