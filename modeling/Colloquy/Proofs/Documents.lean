import Colloquy.Proofs.Dialogue.Document
import Colloquy.Proofs.Replay.Document
import Colloquy.Proofs.Session.SavedGame

/-!
# Documents are read as they were written

Seven kinds of values are kept in documents. For each of them, `documents_read_as_written` says that
the texts of a value that can be written at all are read as the value, and that whatever a text is
read as can be written.

The exact condition is a number by number one. Numerals are read to best effort, so not every finite
double is what its shortest numeral is read as, and a value is read as it was written just when each
of its quantities is. Strings, names, missing parts, variants and counts never stand in the way.
-/

namespace Colloquy

open Json (Codec Figure)

/-- The kinds of values that are kept in documents. -/
inductive DocumentKind
  | expression
  | dialogue
  | remark
  | snapshot
  | sandbox
  | testCase
  | savedGame

namespace DocumentKind

/-- The values of a kind. -/
def Value : DocumentKind → Type
  | expression => Expr
  | dialogue => Dialogue
  | remark => Diagnostic
  | snapshot => Snapshot
  | sandbox => Sandbox.State
  | testCase => Replay.TestCase
  | savedGame => SavedGame

/-- How the values of a kind are written and read. -/
def codec : (kind : DocumentKind) → Codec kind.Value
  | expression => Expr.codec
  | dialogue => Dialogue.codec
  | remark => Diagnostic.codec
  | snapshot => Snapshot.codec
  | sandbox => Sandbox.State.codec
  | testCase => Replay.TestCase.codec
  | savedGame => SavedGame.codec

theorem lawful (kind : DocumentKind) : kind.codec.Lawful := by
  cases kind with
  | expression => exact Expr.lawful
  | dialogue => exact Dialogue.lawful
  | remark => exact Diagnostic.lawful
  | snapshot => exact Snapshot.lawful
  | sandbox => exact Sandbox.State.lawful
  | testCase => exact Replay.TestCase.lawful
  | savedGame => exact SavedGame.lawful

theorem room_le (kind : DocumentKind) : kind.codec.room ≤ Json.depthLimit := by
  cases kind <;> decide

/-- What a text is read as. -/
def read? (kind : DocumentKind) (content : String) : Option kind.Value :=
  (Json.read? content).bind (kind.codec.decode Json.depthLimit)

example : savedGame.read? = SavedGame.ofText? := rfl

section Values

variable (kind : DocumentKind) (value : kind.Value)

/-- Whether a value has a document at all: containers are not nested deeper than a reader follows,
every quantity is finite, and every count fits a word. -/
def Writable : Prop := kind.codec.Fits Json.depthLimit value

/-- Whether every quantity in a value is what its numeral is read as. -/
def NumeralsExact : Prop :=
  ∀ x, Figure.quantity x ∈ kind.codec.figures value → Json.ReadsBack x

/-- Whether the compact text of a value, the indented one and the indented one printed as a line are
all read as the value. -/
def ReadAsWritten : Prop :=
  kind.read? (kind.codec.encode value).compact = some value ∧
    kind.read? (kind.codec.encode value).indented = some value ∧
    kind.read? ((kind.codec.encode value).indented ++ "\n") = some value

end Values

variable {kind : DocumentKind} {value : kind.Value}

/-- The counts of a writable value are always exact. -/
theorem Writable.readsBack_iff (h : kind.Writable value) :
    (∀ figure ∈ kind.codec.figures value, figure.ReadsBack) ↔ kind.NumeralsExact value := by
  constructor
  · intro hfigures x hx
    exact hfigures _ hx
  · intro hexact figure hfigure
    cases figure with
    | quantity x => exact hexact x hfigure
    | count n => exact Json.toNat?_ofNat (h.inRange _ hfigure)

theorem Writable.readAsWritten_iff (h : kind.Writable value) :
    kind.ReadAsWritten value ↔ kind.NumeralsExact value := by
  have hplain := kind.lawful.plain value
  have htext : ∀ {content}, Json.read? content = some (kind.codec.encode value) →
      (kind.read? content = some value ↔ kind.NumeralsExact value) := by
    intro content hcontent
    rw [← h.readsBack_iff]
    exact kind.lawful.read_of_text h.height hcontent
  unfold ReadAsWritten
  rw [htext (Json.read?_compact hplain), htext (Json.read?_indented hplain), htext (Json.read?_printed hplain),
    and_self, and_self]

theorem writable_of_read {content : String} (h : kind.read? content = some value) : kind.Writable value :=
  kind.lawful.fits_of_read kind.room_le h

end DocumentKind

open DocumentKind

/-- **Documents are read as they were written.** A value of any kind is what its texts are read as
just when it can be written and its numerals are exact. Whatever a text is read as can be written, so
it is finite in all its numbers, and with exact numerals it is what its own texts are read as. -/
theorem documents_read_as_written (kind : DocumentKind) :
    (∀ value, kind.ReadAsWritten value ↔ kind.Writable value ∧ kind.NumeralsExact value) ∧
    (∀ content value, kind.read? content = some value →
      kind.Writable value ∧ (kind.NumeralsExact value → kind.ReadAsWritten value)) := by
  constructor
  · intro value
    constructor
    · intro h
      -- what can be read at all is written well
      have hvalue := writable_of_read h.1
      exact ⟨hvalue, hvalue.readAsWritten_iff.mp h⟩
    · intro h
      exact h.1.readAsWritten_iff.mpr h.2
  · intro content value hread
    have hvalue := writable_of_read hread
    exact ⟨hvalue, hvalue.readAsWritten_iff.mpr⟩

/-- Numerals are not all exact: this double is the product of fourteen and a tenth, and its numeral
is read as one of its neighbours. -/
example : ¬ Json.ReadsBack 1.4000000000000001 := by decide +kernel

/-- A test case with marks to escape, every kind of event, and a quantity beside a count. -/
def sampleCase : Replay.TestCase where
  schema := "pl-tool-case.v1"
  vars := .ofList [("gold \"coins\"", 0.5)]
  indexing := .visible
  actions := [2]
  expectedEvents := [.prompt "Say \"no\"\n" ["a\\b", "\x00"], .ignored, .finished]
  expectedVars := .empty
  expectedPawn := some .origin

theorem documents_read_as_written_sample :
    testCase.read? sampleCase.toJson.compact = some sampleCase ∧
      testCase.Writable sampleCase ∧ testCase.ReadAsWritten sampleCase := by
  have hfits : testCase.Writable sampleCase := ⟨by decide +kernel, by decide +kernel⟩
  have hexact : testCase.NumeralsExact sampleCase := hfits.readsBack_iff.mp (by decide +kernel)
  obtain ⟨hread, -⟩ := ((documents_read_as_written .testCase).1 sampleCase).mpr ⟨hfits, hexact⟩
  obtain ⟨hagain, hback⟩ := (documents_read_as_written .testCase).2 _ _ hread
  exact ⟨hread, hagain, hback hexact⟩

end Colloquy
