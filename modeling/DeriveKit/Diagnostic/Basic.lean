import DeriveKit.Diagnostic.Code
import DeriveKit.Source.Span
import DeriveKit.Text.Pieces

/-!
# DeriveKit.Diagnostic.Basic

A problem as it is told to the user (`Diagnostic`): a message, the one place it is about, other
places that bear on it, notes, and hints for mending it. Two reports are the same
(`Diagnostic.SameReport`) if they agree in severity, code, message and place; what else they say
does not matter.
-/

namespace DeriveKit

/-- How grave a problem is. -/
inductive Severity
  | error
  | warning
deriving DecidableEq, Repr

/-- The word for a severity. -/
def Severity.text : Severity → String
  | .error => "Error"
  | .warning => "Warning"

/-- A place with a remark on it. -/
structure Remark where
  span : Span
  message : String
deriving DecidableEq, Repr

/-- A problem as it is reported. -/
structure Diagnostic where
  code : Code
  severity : Severity
  message : String
  primary : Option Remark
  related : List Remark
  notes : List String
  help : List String
deriving DecidableEq, Repr

namespace Diagnostic

/-- A report of which nothing but the code is known; the message is what the code means. -/
def ofCode (severity : Severity) (code : Code) : Diagnostic :=
  ⟨code, severity, code.description, none, [], [], []⟩

/-- An error with a message of its own. -/
def error (code : Code) (message : String) : Diagnostic := { ofCode .error code with message }

/-- The report about a place; the last place given is the one that counts. -/
def at' (d : Diagnostic) (span : Span) (message : String) : Diagnostic :=
  { d with primary := some ⟨span, message⟩ }

/-- The report with another place that bears on it. -/
def relate (d : Diagnostic) (span : Span) (message : String) : Diagnostic :=
  { d with related := d.related ++ [⟨span, message⟩] }

/-- The report with one more note. -/
def note (d : Diagnostic) (text : String) : Diagnostic := { d with notes := d.notes ++ [text] }

/-- The report with one more hint. -/
def hint (d : Diagnostic) (text : String) : Diagnostic := { d with help := d.help ++ [text] }

/-- The place that the report is about. -/
def place? (d : Diagnostic) : Option Span := d.primary.map (·.span)

/-- Whether the report is of an error. -/
def isError (d : Diagnostic) : Bool := d.severity == .error

/-- Whether a report only repeats another one. -/
def isSameReport (d e : Diagnostic) : Bool :=
  d.code == e.code && d.severity == e.severity && d.place? == e.place? && d.message == e.message

/-- Reports of the same problem: the same code, severity, place and message. -/
def SameReport (d e : Diagnostic) : Prop :=
  d.code = e.code ∧ d.severity = e.severity ∧
    d.primary.map (·.span) = e.primary.map (·.span) ∧ d.message = e.message

instance (d e : Diagnostic) : Decidable (SameReport d e) := by
  unfold SameReport; infer_instance

/-- The check of the four fields, as `Queue.push` makes it, tells reports of the same problem. -/
theorem isSameReport_iff {d e : Diagnostic} : d.isSameReport e = true ↔ d.SameReport e := by
  simp [isSameReport, SameReport, place?, and_assoc]

namespace SameReport

variable {d e f : Diagnostic}

/-- Every report is the same as itself. -/
theorem refl (d : Diagnostic) : d.SameReport d := ⟨rfl, rfl, rfl, rfl⟩

/-- It does not matter which of two reports came first. -/
theorem symm (h : d.SameReport e) : e.SameReport d :=
  ⟨h.1.symm, h.2.1.symm, h.2.2.1.symm, h.2.2.2.symm⟩

/-- Reports that are the same as a third are the same, so it is enough to compare with one that is
kept. -/
theorem trans (h : d.SameReport e) (h' : e.SameReport f) : d.SameReport f :=
  ⟨h.1.trans h'.1, h.2.1.trans h'.2.1, h.2.2.1.trans h'.2.2.1, h.2.2.2.trans h'.2.2.2⟩

/-- Reports of the same problem are equally grave. -/
theorem isError_eq (h : d.SameReport e) : d.isError = e.isError := by
  rw [isError, isError, h.2.1]

end SameReport

/-- The line for a place. -/
def remarkLine (word : String) (r : Remark) : String :=
  "\n  " ++ word ++ " " ++ r.span.text ++ ": " ++ r.message

/-- The report as lines of text. -/
def text (d : Diagnostic) : String :=
  d.severity.text ++ "[" ++ d.code.text ++ "]: " ++ d.message ++
    joinAll (d.primary.toList.map (remarkLine "at")) ++
    joinAll (d.related.map (remarkLine "see")) ++ leadEach "\n  note: " d.notes ++
    leadEach "\n  help: " d.help

end Diagnostic

end DeriveKit
