import Colloquy.Expr.Printer
import Colloquy.Position

/-!
# Faults

Everything that can go wrong while a dialogue is read, built and played, as causes: a fault says
what happened and carries what it happened to. `Fault.report` is the one place that words them. A
report has a kind, a code, a message and, for faults in the text itself, the stretch of text.

Faults of the first four kinds end loading; faults of evaluation and play end one turn; a `raised`
fault comes from outside the language, from a host or from the files, with a code of its own.
-/

namespace Colloquy

/-- The classes of faults. -/
inductive FaultKind
  | unbalancedParentheses
  | unterminatedString
  | malformedGrammar
  | unknownInitialLabel
  | undefinedSymbol
  | notCallable
  | arityMismatch
  | typeMismatch
  | unknownLabel
  | indexOutOfRange
  | dialogueEnded
  | invalidSnapshot
  | host
deriving DecidableEq, Repr

namespace FaultKind

/-- The code reported for a kind. -/
def code : FaultKind → String
  | unbalancedParentheses => "READER_UNBALANCED_PARENTHESES"
  | unterminatedString => "READER_UNTERMINATED_STRING"
  | malformedGrammar => "COMPILER_MALFORMED_GRAMMAR"
  | unknownInitialLabel => "COMPILER_UNKNOWN_INITIAL_LABEL"
  | undefinedSymbol => "EVAL_UNDEFINED_SYMBOL"
  | notCallable => "EVAL_NOT_CALLABLE"
  | arityMismatch => "EVAL_ARITY_MISMATCH"
  | typeMismatch => "EVAL_TYPE_MISMATCH"
  | unknownLabel => "RUNTIME_UNKNOWN_LABEL"
  | indexOutOfRange => "RUNTIME_INDEX_OUT_OF_RANGE"
  | dialogueEnded => "RUNTIME_DIALOGUE_ENDED"
  | invalidSnapshot => "RUNTIME_INVALID_SNAPSHOT"
  | host => "HOST_ERROR"

/-- Whether a fault of this kind ends the loading of a dialogue. -/
def isLoadFailure : FaultKind → Bool
  | unbalancedParentheses | unterminatedString | malformedGrammar | unknownInitialLabel => true
  | _ => false

end FaultKind

/-- What is told about a fault. -/
structure Report where
  kind : FaultKind
  code : String
  message : String
  span : Option Span
deriving DecidableEq

namespace Report

/-- A report with the code of its kind. -/
def ofKind (kind : FaultKind) (message : String) : Report := ⟨kind, kind.code, message, none⟩

/-- A report from outside the language, with a code of its own. -/
def host (code message : String) : Report := ⟨.host, code, message, none⟩

/-- The line shown for a report. -/
def text (r : Report) : String := s!"{r.code}: {r.message}"

end Report

/-- What can be wrong with script text. -/
inductive ReadingFault
  /-- A string literal has no closing quote; `inEscape` if the text ends after a backslash. -/
  | unclosedText (span : Span) (inEscape : Bool)
  /-- A closing parenthesis stands outside any list. -/
  | strayClose (span : Span)
  /-- The innermost list still open at the end of the text, by its opening parenthesis. -/
  | unclosedList (span : Span)
  /-- A text that should hold one expression holds another number of them. -/
  | notSingle (count : Nat)

namespace ReadingFault

def kind : ReadingFault → FaultKind
  | unclosedText .. => .unterminatedString
  | strayClose _ | unclosedList _ => .unbalancedParentheses
  | notSingle _ => .malformedGrammar

def message : ReadingFault → String
  | unclosedText span false => s!"String literal opened at {span.start.text} is never closed."
  | unclosedText span true => s!"String literal opened at {span.start.text} ends inside an escape."
  | strayClose span => s!"Unexpected \")\" at {span.start.text} closes no open list."
  | unclosedList span => s!"List opened at {span.start.text} is never closed."
  | notSingle count => s!"Expected exactly one expression, found {count}."

def span? : ReadingFault → Option Span
  | unclosedText span _ | strayClose span | unclosedList span => some span
  | notSingle _ => none

def report (f : ReadingFault) : Report := ⟨f.kind, f.kind.code, f.message, f.span?⟩

end ReadingFault

/-- What can be wrong with the forms of a dialogue. -/
inductive GrammarFault
  | topLevelAtom (atom : Expr)
  | topLevelForm (form : Expr)
  | labelNameMissing
  | labelNameKind (found : Expr)
  | labelRepeated (label : String)
  | startShape
  | startRepeated (first second : String)
  | startMissing
  | startUndeclared (label : String)
  | bareAtom (label : String) (atom : Expr)
  | unknownForm (label : String) (form : Expr)
  | textRepeated (label : String)
  | textShape (label : String)
  | textMissing (label : String)
  | choiceTextMissing (label : String)
  | choicePositional (label choice : String)
  | choiceValueMissing (label choice : String)
  | choiceJumpKind (label choice : String)
  | choiceKeyword (label choice : String) (key : Expr)
  | choiceTargetMissing (label choice : String)
  | afterRepeated (label : String)
  | afterJumpKind (label : String)
  | afterItem (label : String) (item : Expr)
  | grammarInCode (label head : String) (form : Expr)
  | assignmentShape (label : String) (form : Expr)
  | undeclaredTarget (label target : String)

namespace GrammarFault

def kind : GrammarFault → FaultKind
  | startUndeclared _ => .unknownInitialLabel
  | undeclaredTarget .. => .unknownLabel
  | _ => .malformedGrammar

def message : GrammarFault → String
  | topLevelAtom atom => s!"Top-level {atom.kindName} \"{atom.print}\" is not a form; " ++
      "expected (label ...) or (start-dialogue ...)."
  | topLevelForm form => s!"Unexpected top-level form \"{form.print}\"; " ++
      "expected (label ...) or (start-dialogue ...)."
  | labelNameMissing => "(label) is missing its name."
  | labelNameKind found =>
    s!"Label name must be a symbol, got {found.kindName} \"{found.print}\"."
  | labelRepeated label => s!"Label \"{label}\" is declared more than once."
  | startShape => "start-dialogue takes exactly one label symbol: (start-dialogue <label>)."
  | startRepeated first second =>
    s!"start-dialogue is declared twice (\"{first}\" and \"{second}\")."
  | startMissing => "Dialogue has no (start-dialogue <label>) form."
  | startUndeclared label => s!"start-dialogue names \"{label}\", which is not a declared label."
  | bareAtom label atom =>
    s!"Label \"{label}\" contains bare {atom.kindName} \"{atom.print}\"; " ++
      "expected (text ...), (choice ...) or (after ...)."
  | unknownForm label form => s!"Unknown form \"{form.print}\" in label \"{label}\"."
  | textRepeated label => s!"Label \"{label}\" declares (text ...) more than once."
  | textShape label =>
    s!"Label \"{label}\": text takes exactly one string literal: (text \"...\")."
  | textMissing label => s!"Label \"{label}\" has no (text \"...\") form."
  | choiceTextMissing label => s!"Label \"{label}\": choice must start with its display string."
  | choicePositional label choice =>
    s!"Label \"{label}\": choice \"{choice}\" must be " ++
      "(choice \"text\" <label> [<condition>]) or use jump/cond keywords."
  | choiceValueMissing label choice =>
    s!"Label \"{label}\": choice \"{choice}\" has a keyword without a value."
  | choiceJumpKind label choice =>
    s!"Label \"{label}\": choice \"{choice}\" must jump to a label symbol."
  | choiceKeyword label choice key =>
    s!"Label \"{label}\": choice \"{choice}\" has unexpected or repeated \"{key.print}\"."
  | choiceTargetMissing label choice =>
    s!"Label \"{label}\": choice \"{choice}\" has no jump target."
  | afterRepeated label => s!"Label \"{label}\" declares (after ...) more than once."
  | afterJumpKind label => s!"Label \"{label}\": after's jump must name a label symbol."
  | afterItem label item => s!"Label \"{label}\": unexpected \"{item.print}\" in after; " ++
      "expected (body ...) and jump <label>."
  | grammarInCode label head form => s!"Label \"{label}\": \"{head}\" is dialogue grammar " ++
      s!"and cannot appear inside code: {form.print}"
  | assignmentShape label form =>
    s!"Label \"{label}\": set* must be (set* <symbol> <expr>), got {form.print}"
  | undeclaredTarget label target =>
    s!"Label \"{label}\" targets \"{target}\", which is not a declared label."

def report (f : GrammarFault) : Report := .ofKind f.kind f.message

end GrammarFault

/-- What can go wrong while code runs. -/
inductive EvaluationFault
  | undefinedSymbol (name : String)
  | emptyList
  /-- The head of a list is a value that cannot be called. -/
  | notCallable (callee valueKind : String)
  /-- A function is called with a number of arguments that it does not take. -/
  | wrongCount (function takes : String) (count : Nat)
  | assignmentCount (count : Nat)
  | typeMismatch (context expected found : String)
deriving DecidableEq

namespace EvaluationFault

def kind : EvaluationFault → FaultKind
  | undefinedSymbol _ => .undefinedSymbol
  | emptyList | notCallable .. => .notCallable
  | wrongCount .. | assignmentCount _ => .arityMismatch
  | typeMismatch .. => .typeMismatch

def message : EvaluationFault → String
  | undefinedSymbol name => s!"Symbol \"{name}\" is not bound in the environment."
  | emptyList => "Cannot evaluate an empty list \"()\"."
  | notCallable callee valueKind => s!"\"{callee}\" is a {valueKind}, not a function."
  | wrongCount function takes count => s!"Function \"{function}\" expects {takes}, got {count}."
  | assignmentCount count => s!"set* expects 2 arguments, got {count}."
  | typeMismatch context expected found => s!"{context} expects {expected}, got {found}."

def report (f : EvaluationFault) : Report := .ofKind f.kind f.message

end EvaluationFault

/-- The schema of saved places in a dialogue. -/
def snapshotSchema : String := "parley-snapshot.v1"

/-- What can go wrong with a step of the player. -/
inductive PlayFault
  | unknownLabel (label : String)
  /-- The label shows `count` choices and the index is not one of theirs. -/
  | indexOutOfRange (label : String) (index count : Nat)
  | ended
  | snapshotSchema (found : String)
  | snapshotLabel (label : String)
deriving DecidableEq

namespace PlayFault

def kind : PlayFault → FaultKind
  | unknownLabel _ => .unknownLabel
  | indexOutOfRange .. => .indexOutOfRange
  | ended => .dialogueEnded
  | snapshotSchema _ | snapshotLabel _ => .invalidSnapshot

def message : PlayFault → String
  | unknownLabel label => s!"Label \"{label}\" is not declared in this dialogue."
  | indexOutOfRange label index count =>
    s!"Choice index {index} is out of range for label \"{label}\" ({count} choices)."
  | ended => "The dialogue has already ended."
  | snapshotSchema found =>
    s!"Snapshot schema \"{found}\" is not supported; expected \"{Colloquy.snapshotSchema}\"."
  | snapshotLabel label => s!"Snapshot label \"{label}\" is not part of this dialogue."

def report (f : PlayFault) : Report := .ofKind f.kind f.message

end PlayFault

/-- Anything that can go wrong. -/
inductive Fault
  | reading (cause : ReadingFault)
  /-- A fault in the text of one file of several. -/
  | inFile (path : String) (cause : ReadingFault)
  | grammar (cause : GrammarFault)
  | evaluation (cause : EvaluationFault)
  | play (cause : PlayFault)
  | raised (report : Report)

namespace Fault

/-- What is told about a fault. -/
def report : Fault → Report
  | reading cause => cause.report
  | inFile path cause =>
    let inner := cause.report
    { inner with message := s!"{path}: {inner.message}" }
  | grammar cause => cause.report
  | evaluation cause => cause.report
  | play cause => cause.report
  | raised report => report

/-- A fault raised outside the language, with a code of its own. -/
def host (code message : String) : Fault := raised (.host code message)

/-- The kind of a fault. -/
def kind (f : Fault) : FaultKind := f.report.kind

/-- The code of a fault. -/
def code (f : Fault) : String := f.report.code

/-- The message of a fault. -/
def message (f : Fault) : String := f.report.message

end Fault

end Colloquy
