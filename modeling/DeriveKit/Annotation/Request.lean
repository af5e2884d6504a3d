import DeriveKit.Annotation.Read

/-!
# DeriveKit.Annotation.Request

What an annotation asks for. It is an entry or a tuple of entries; an entry is the name of a
generator, alone or applied to a record of options. One key is reserved: it says that the entry is
to be passed over if the generator is not there.
-/

namespace DeriveKit

/-- A generator asked for, with the options for it in the order of the source. -/
structure Request where
  name : String
  span : Span
  settings : List Setting
  isOptional : Bool

/-- Whether an attribute is an annotation. -/
def Attribute.isDeriving {π : Type} (a : Attribute π) : Bool :=
  a.name.value == "deriving" || a.name.value == "ocaml.deriving"

namespace Request

/-- The reserved key. -/
def optionalKey : String := "optional"

/-- An option in the record after the name of a generator. -/
def settingOf (field : Located QualName × Expr Payload) : Setting :=
  ⟨field.1.value.dotted, field.2, field.1.span.merge field.2.span⟩

/-- Takes the first option with the reserved key away: its value, or false, and the others. -/
def splitOptional (name : String) : List Setting → Outcome (Bool × List Setting)
  | [] => .ok (false, [])
  | s :: rest =>
      if s.key = optionalKey then return (← s.value.readValue name Decoder.bool, rest)
      else do
        let (isOptional, others) ← splitOptional name rest
        return (isOptional, s :: others)

/-- Reads an entry. -/
def ofEntry (e : Expr Payload) : Outcome Request :=
  match e.shape with
  | .ident name => .ok ⟨name.value.dotted, e.span, [], false⟩
  | .apply ⟨.ident name, _, _⟩ [(.positional, arg)] =>
      match arg.shape with
      | .record fields none => do
        let (isOptional, settings) ← splitOptional name.value.dotted (fields.map settingOf)
        return ⟨name.value.dotted, e.span, settings, isOptional⟩
      | _ => fail .malformedOptions arg.span
  | _ => fail .malformedOptions e.span

/-- Reads the entries of an annotation that stands at `span`, from left to right. -/
def ofPayload (payload : Payload) (span : Span) : Outcome (List Request) :=
  match payload.expr? with
  | none => fail .malformedRequest span
  | some e =>
      match e.shape with
      | .tuple entries => entries.mapM ofEntry
      | .ident _ | .apply _ _ => return [← ofEntry e]
      | _ => fail .malformedRequest e.span

end Request

end DeriveKit
