import DeriveKit.Generator.Failure
import DeriveKit.Wire.Source

/-!
# DeriveKit.Wire.Failure

Failures and the ways to ask a generator in the exchange format. A `Cause` is told by its kind
(`Cause.kind`) and what goes with that; `EntryPoint.decode` reads the name of a way to ask.
-/

namespace DeriveKit

/-- Reads a way to ask by its name. -/
def EntryPoint.decode (d : Data) : Option EntryPoint :=
  d.enum? [("type_decl_str", structureTypes), ("type_ext_str", structureExtension),
    ("type_decl_sig", signatureTypes), ("type_ext_sig", signatureExtension),
    ("core_type", inline)]

/-- The name of a kind of cause. -/
def Cause.kind : Cause → String
  | malformedRequest => "MalformedDeriving"
  | malformedOptions => "MalformedOption"
  | unknownGenerator _ _ => "UnknownGenerator"
  | unsupported _ _ => "Unsupported"
  | invalidAttribute _ => "InvalidAttribute"
  | invalidOption _ => "InvalidOption"
  | nonrecursive => "NonrecUnsupported"
  | malformedInline => "MalformedInline"
  | custom _ => "Custom"

/-- Reads a cause from its kind and what goes with that. -/
def Cause.decode (get : String → Data) : Option Cause := do
  match ← (get "kind").string? with
  | "MalformedDeriving" => return malformedRequest
  | "MalformedOption" => return malformedOptions
  | "UnknownGenerator" =>
      return unknownGenerator (← (get "name").string?) (← (get "known").list? Data.string?)
  | "Unsupported" =>
      return unsupported (← (get "generator").string?) (← EntryPoint.decode (get "entry"))
  | "InvalidAttribute" => return invalidAttribute (← (get "message").string?)
  | "InvalidOption" => return invalidOption (← (get "message").string?)
  | "NonrecUnsupported" => return nonrecursive
  | "MalformedInline" => return malformedInline
  | "Custom" => return custom (← (get "message").string?)
  | _ => none

namespace Failure

/-- A failure as a structure. -/
def encode (f : Failure) : Data :=
  .object [("error", .string f.cause.kind), ("message", .string f.cause.message),
    ("span", f.span.encode), ("code", .string f.cause.code.text)]

/-- Reads a failure. -/
def decode (d : Data) : Option Failure :=
  match d with
  | .object members => do
    let get := Data.member members
    return ⟨← Cause.decode get, ← Span.decode (get "span")⟩
  | _ => none

end Failure

end DeriveKit
