import DeriveKit.Tree.Pattern
import DeriveKit.Wire.Type

/-!
# DeriveKit.Wire.Pattern

Constants and patterns in the exchange format, given a format for payloads. `Pattern.decode` is
given a bound on the depth of the value, as the readers of types are.
-/

namespace DeriveKit

/-- A single character as a text. -/
def encodeChar (c : Char) : Data := .string c.toString

namespace Constant

/-- A literal as a choice. -/
def encode : Constant → Data
  | integer text suffix =>
      .choice "Integer" (.list [.string text, .ofOption encodeChar suffix])
  | char value => .choice "Char" (encodeChar value)
  | string value delimiter =>
      .choice "String" (.list [.string value, .ofOption .string delimiter])
  | float text suffix => .choice "Float" (.list [.string text, .ofOption encodeChar suffix])

/-- Reads a literal. -/
def decode (d : Data) : Option Constant :=
  match d.choice? with
  | some ("Integer", .list [text, suffix]) =>
      return integer (← text.string?) (← suffix.option? Data.char?)
  | some ("Char", value) => return char (← value.char?)
  | some ("String", .list [value, delimiter]) =>
      return string (← value.string?) (← delimiter.option? Data.string?)
  | some ("Float", .list [text, suffix]) =>
      return float (← text.string?) (← suffix.option? Data.char?)
  | _ => none

end Constant

variable {π : Type}

mutual

/-- A pattern as a structure. -/
def Pattern.encode (pay : π → Data) : Pattern π → Data
  | ⟨shape, span, attributes⟩ =>
      .object [("kind", PatternShape.encode pay shape), ("span", span.encode),
        ("attributes", Attribute.encodeAll pay attributes)]

/-- A form of pattern as a choice. -/
def PatternShape.encode (pay : π → Data) : PatternShape π → Data
  | .any => .string "Any"
  | .var name => .choice "Var" (encodeName name)
  | .aliased pattern name => .choice "Alias" (.list [Pattern.encode pay pattern, encodeName name])
  | .constant value => .choice "Constant" value.encode
  | .tuple elements => .choice "Tuple" (.list (Pattern.encodeItems pay elements))
  | .construct name arg =>
      .choice "Construct" (.list [encodeQualName name, Pattern.encodeOption pay arg])
  | .variant tag arg => .choice "Variant" (.list [.string tag, Pattern.encodeOption pay arg])
  | .record fields openness =>
      .choice "Record" (.list [.list (Pattern.encodeFields pay fields), openness.encode])
  | .either left right =>
      .choice "Or" (.list [Pattern.encode pay left, Pattern.encode pay right])
  | .constraint pattern type =>
      .choice "Constraint" (.list [Pattern.encode pay pattern, type.encode pay])

/-- The items of a list of patterns. -/
def Pattern.encodeItems (pay : π → Data) : List (Pattern π) → List Data
  | [] => []
  | p :: rest => Pattern.encode pay p :: Pattern.encodeItems pay rest

/-- A pattern that may be absent. -/
def Pattern.encodeOption (pay : π → Data) : Option (Pattern π) → Data
  | none => .null
  | some p => Pattern.encode pay p

/-- The items of a list of fields. -/
def Pattern.encodeFields (pay : π → Data) : List (Located QualName × Pattern π) → List Data
  | [] => []
  | (label, p) :: rest =>
      .list [encodeQualName label, Pattern.encode pay p] :: Pattern.encodeFields pay rest

end

mutual

/-- Reads a pattern. -/
def Pattern.decode (pay : Data → Option π) : Nat → Data → Option (Pattern π)
  | 0, _ => none
  | n + 1, d =>
      match d.fields? ["kind", "span", "attributes"] with
      | some [kind, span, attributes] =>
          return ⟨← PatternShape.decode pay n kind, ← Span.decode span,
            ← Attribute.decodeAll pay attributes⟩
      | _ => none

/-- Reads a form of pattern. -/
def PatternShape.decode (pay : Data → Option π) : Nat → Data → Option (PatternShape π)
  | 0, _ => none
  | n + 1, d =>
      match d.choice? with
      | some ("Any", .null) => some .any
      | some ("Var", name) => return .var (← decodeName name)
      | some ("Alias", .list [pattern, name]) =>
          return .aliased (← Pattern.decode pay n pattern) (← decodeName name)
      | some ("Constant", value) => return .constant (← Constant.decode value)
      | some ("Tuple", elements) => return .tuple (← elements.list? (Pattern.decode pay n))
      | some ("Construct", .list [name, arg]) =>
          return .construct (← decodeQualName name) (← arg.option? (Pattern.decode pay n))
      | some ("Variant", .list [tag, arg]) =>
          return .variant (← tag.string?) (← arg.option? (Pattern.decode pay n))
      | some ("Record", .list [fields, openness]) =>
          return .record (← fields.list? (Data.pair? decodeQualName (Pattern.decode pay n)))
            (← Openness.decode openness)
      | some ("Or", .list [left, right]) =>
          return .either (← Pattern.decode pay n left) (← Pattern.decode pay n right)
      | some ("Constraint", .list [pattern, type]) =>
          return .constraint (← Pattern.decode pay n pattern) (← TypeExpr.decode pay n type)
      | _ => none

end

end DeriveKit
