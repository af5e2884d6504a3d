import DeriveKit.Argument.Attribute
import DeriveKit.Argument.Decoder
import DeriveKit.Generator.Basic

/-!
# DeriveKit.Annotation.Read

Reading what a user wrote for a generator: values (`Attribute.readValue`), flags
(`Attribute.readFlag`), and options (`Setting.readValue?`). A failure names the generator and says
what was expected.
-/

namespace DeriveKit

variable {α : Type}

/-- The complaint about an attribute. -/
def invalidAttribute (generator : String) (a : Attribute Payload) (expected : String) : Cause :=
  .invalidAttribute
    (generator ++ ": invalid [@" ++ a.name.value ++ "]: " ++ expected ++ " expected")

/-- The value after the name of an attribute, which has to be an expression. -/
def Attribute.readValue (generator : String) (decoder : Decoder Payload α)
    (a : Attribute Payload) : Outcome α :=
  match a.payload.expr? with
  | none => fail (invalidAttribute generator a "value") a.span
  | some e =>
      match decoder e with
      | .ok value => .ok value
      | .error expected => fail (invalidAttribute generator a expected) e.span

/-- The value of an attribute that may be absent. -/
def Attribute.readValue? (generator : String) (decoder : Decoder Payload α) :
    Option (Attribute Payload) → Outcome (Option α)
  | none => .ok none
  | some a => return some (← a.readValue generator decoder)

/-- Whether a flag is set: an attribute without a value sets it. -/
def Attribute.readFlag (generator : String) : Option (Attribute Payload) → Outcome Bool
  | none => .ok false
  | some a =>
      if a.payload.isEmpty then .ok true
      else fail (invalidAttribute generator a "empty structure") a.span

/-- The value of an expression, such as that of an option. -/
def Expr.readValue (generator : String) (decoder : Decoder Payload α) (e : Expr Payload) :
    Outcome α :=
  match decoder e with
  | .ok value => .ok value
  | .error expected => fail (.invalidOption (generator ++ ": " ++ expected ++ " expected")) e.span

/-- The value of the first option with a key, if there is one. -/
def Setting.readValue? (generator : String) (decoder : Decoder Payload α) (settings : List Setting)
    (key : String) : Outcome (Option α) :=
  match settings.find? fun s => s.key == key with
  | none => .ok none
  | some s => return some (← s.value.readValue generator decoder)

end DeriveKit
