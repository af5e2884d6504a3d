import DeriveKit.Diagnostic.Basic
import DeriveKit.Generator.EntryPoint
import DeriveKit.Text.Payload

/-!
# DeriveKit.Generator.Failure

Why an expansion fails. A failure has a cause and a place, and becomes one report. A declaration
that no legal program holds is a different matter: it is a mistake of whoever built it, and ends
the work without a report.
-/

namespace DeriveKit

/-- The causes of failure. -/
inductive Cause
  | malformedRequest
  | malformedOptions
  | unknownGenerator (name : String) (known : List String)
  | unsupported (generator : String) (entry : EntryPoint)
  | invalidAttribute (message : String)
  | invalidOption (message : String)
  | nonrecursive
  | malformedInline
  | custom (message : String)
deriving DecidableEq, Repr

namespace Cause

/-- The code under which a cause is reported. -/
def code : Cause → Code
  | malformedRequest => .malformedRequest
  | malformedOptions => .malformedOptions
  | unknownGenerator _ _ => .unknownGenerator
  | unsupported _ _ => .unsupported
  | invalidAttribute _ => .invalidAttribute
  | invalidOption _ => .invalidOption
  | nonrecursive => .nonrecursive
  | malformedInline => .malformedInline
  | custom _ => .generatorError

/-- What went wrong, in a line. -/
def message : Cause → String
  | malformedRequest => "Unrecognized [@@deriving] annotation syntax"
  | malformedOptions => "Unrecognized [@@deriving] option syntax"
  | unknownGenerator name _ => "Cannot locate deriver " ++ name
  | unsupported generator .inline =>
      generator ++ " does not support [%derive." ++ generator ++ "] syntax"
  | unsupported generator entry => entry.text ++ " not supported by generator " ++ generator
  | invalidAttribute message | invalidOption message | custom message => message
  | nonrecursive => "The nonrec flag is not supported by deriving"
  | malformedInline => "Unrecognized [%derive.*] syntax"

/-- The remark on the place of a failure. -/
def remark : Cause → String
  | malformedRequest => "unrecognized annotation"
  | malformedOptions => "expected a record of options"
  | unknownGenerator name _ => "no generator named `" ++ name ++ "`"
  | unsupported _ _ => "requested here"
  | invalidAttribute _ | invalidOption _ => "invalid value"
  | nonrecursive => "nonrec type group with a deriving annotation"
  | malformedInline => "expected a type payload"
  | custom _ => "reported by generator"

/-- The notes that go with a cause. -/
def notes : Cause → List String
  | malformedRequest => ["expected `name`, `name \x7b key = value \x7d`, or a tuple of those"]
  | malformedOptions => ["options are written `name \x7b key = value; ... \x7d`"]
  | unknownGenerator _ [] => ["no generators are registered"]
  | unknownGenerator _ known => ["registered generators: " ++ joinWith ", " known]
  | malformedInline => ["inline derivation is written `[%derive.<name>: <type>]`"]
  | unsupported _ _ | invalidAttribute _ | invalidOption _ | nonrecursive | custom _ => []

/-- The hints that go with a cause. -/
def help : Cause → List String
  | unknownGenerator name _ =>
      ["write `" ++ name ++ " \x7b optional = true \x7d` to skip it when unavailable"]
  | nonrecursive => ["remove `nonrec`, or rename the type so it no longer shadows"]
  | _ => []

end Cause

/-- A cause and the place it is to be reported at. -/
structure Failure where
  cause : Cause
  span : Span
deriving DecidableEq, Repr

namespace Failure

/-- The failure at `fallback`, unless it has a place already. -/
def orAt (f : Failure) (fallback : Span) : Failure := { f with span := f.span.orElse fallback }

/-- The report of a failure. -/
def diagnostic (f : Failure) : Diagnostic where
  code := f.cause.code
  severity := .error
  message := f.cause.message
  primary := some ⟨f.span, f.cause.remark⟩
  related := []
  notes := f.cause.notes
  help := f.cause.help

end Failure

/-- Why there is no result: a failure to report, or a type where none like it can be. -/
inductive Fault
  | failure (f : Failure)
  | parameter (t : TypeExpr Payload)
  | freeVars (t : TypeExpr Payload)

namespace Fault

/-- Gives a failure a place, unless it has one. -/
def orAt (fault : Fault) (fallback : Span) : Fault :=
  match fault with
  | failure f => failure (f.orAt fallback)
  | parameter t => parameter t
  | freeVars t => freeVars t

/-- What the author of an impossible declaration is told. -/
def breach? : Fault → Option String
  | failure _ => none
  | parameter t => some ("type parameter must be a variable or `_`, found `" ++ t.text ++ "`")
  | freeVars t => some ("free_vars: unsupported type expression `" ++ t.text ++ "`")

end Fault

/-- The outcome of a step of an expansion. -/
abbrev Outcome := Except Fault

/-- An outcome that is a failure. -/
def fail {α : Type} (cause : Cause) (span : Span) : Outcome α := .error (.failure ⟨cause, span⟩)

end DeriveKit
