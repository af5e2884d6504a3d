import DeriveKit.Tree.Type
import DeriveKit.Wire.Source

/-!
# DeriveKit.Wire.Type

Attributes, extension nodes, type expressions and rows in the exchange format, given a format for
payloads. Reading takes a bound on the depth of the value; `Data.depth` is always enough.
-/

namespace DeriveKit

variable {π : Type}

/-- An attribute as a structure. -/
def Attribute.encode (pay : π → Data) (a : Attribute π) : Data :=
  .object [("name", encodeName a.name), ("payload", pay a.payload), ("span", a.span.encode)]

/-- Reads an attribute. -/
def Attribute.decode (pay : Data → Option π) (d : Data) : Option (Attribute π) :=
  match d.fields? ["name", "payload", "span"] with
  | some [name, payload, span] => return ⟨← decodeName name, ← pay payload, ← Span.decode span⟩
  | _ => none

/-- A list of attributes. -/
def Attribute.encodeAll (pay : π → Data) (attributes : List (Attribute π)) : Data :=
  .ofList (Attribute.encode pay) attributes

/-- Reads a list of attributes. -/
def Attribute.decodeAll (pay : Data → Option π) (d : Data) : Option (List (Attribute π)) :=
  d.list? (Attribute.decode pay)

/-- An extension node as a structure. -/
def Extension.encode (pay : π → Data) (x : Extension π) : Data :=
  .object [("name", encodeName x.name), ("payload", pay x.payload)]

/-- Reads an extension node. -/
def Extension.decode (pay : Data → Option π) (d : Data) : Option (Extension π) :=
  match d.fields? ["name", "payload"] with
  | some [name, payload] => return ⟨← decodeName name, ← pay payload⟩
  | _ => none

namespace ArgLabel

/-- A label as a choice. -/
def encode : ArgLabel → Data
  | positional => .string "Nolabel"
  | labelled label => .choice "Labelled" (.string label)
  | optional label => .choice "Optional" (.string label)

/-- Reads a label. -/
def decode (d : Data) : Option ArgLabel :=
  match d.choice? with
  | some ("Nolabel", .null) => some positional
  | some ("Labelled", label) => label.string?.map labelled
  | some ("Optional", label) => label.string?.map optional
  | _ => none

end ArgLabel

namespace Openness

/-- Whether there may be others, as a choice. -/
def encode : Openness → Data
  | closed => .string "Closed"
  | extensible => .string "Open"

/-- Reads whether there may be others. -/
def decode : Data → Option Openness := Data.enum? [("Closed", closed), ("Open", extensible)]

end Openness

mutual

/-- A type expression as a structure. -/
def TypeExpr.encode (pay : π → Data) : TypeExpr π → Data
  | ⟨shape, span, attributes⟩ =>
      .object [("kind", TypeShape.encode pay shape), ("span", span.encode),
        ("attributes", Attribute.encodeAll pay attributes)]

/-- A form of type as a choice. -/
def TypeShape.encode (pay : π → Data) : TypeShape π → Data
  | .any => .string "Any"
  | .var name => .choice "Var" (.string name)
  | .arrow label domain codomain =>
      .choice "Arrow" (.list
        [label.encode, TypeExpr.encode pay domain, TypeExpr.encode pay codomain])
  | .tuple elements => .choice "Tuple" (.list (TypeExpr.encodeItems pay elements))
  | .constr name args =>
      .choice "Constr" (.list [encodeQualName name, .list (TypeExpr.encodeItems pay args)])
  | .object methods openness =>
      .choice "Object" (.list [.list (TypeExpr.encodeMethods pay methods), openness.encode])
  | .aliased body name => .choice "Alias" (.list [TypeExpr.encode pay body, encodeName name])
  | .variant rows openness lower =>
      .choice "Variant" (.list
        [.list (Row.encodeItems pay rows), openness.encode, .ofOption (.ofList .string) lower])
  | .poly vars body => .choice "Poly" (.list [.ofList encodeName vars, TypeExpr.encode pay body])
  | .package name => .choice "Package" (encodeQualName name)
  | .extension ext => .choice "Extension" (ext.encode pay)

/-- The items of a list of type expressions. -/
def TypeExpr.encodeItems (pay : π → Data) : List (TypeExpr π) → List Data
  | [] => []
  | t :: rest => TypeExpr.encode pay t :: TypeExpr.encodeItems pay rest

/-- The items of a list of methods. -/
def TypeExpr.encodeMethods (pay : π → Data) : List (Located String × TypeExpr π) → List Data
  | [] => []
  | (name, t) :: rest =>
      .list [encodeName name, TypeExpr.encode pay t] :: TypeExpr.encodeMethods pay rest

/-- A row as a structure. -/
def Row.encode (pay : π → Data) : Row π → Data
  | ⟨shape, span, attributes⟩ =>
      .object [("kind", RowShape.encode pay shape), ("span", span.encode),
        ("attributes", Attribute.encodeAll pay attributes)]

/-- A form of row as a choice. -/
def RowShape.encode (pay : π → Data) : RowShape π → Data
  | .tag label constant args =>
      .choice "Tag" (.object [("label", encodeName label), ("constant", .bool constant),
        ("args", .list (TypeExpr.encodeItems pay args))])
  | .inherit t => .choice "Inherit" (TypeExpr.encode pay t)

/-- The items of a list of rows. -/
def Row.encodeItems (pay : π → Data) : List (Row π) → List Data
  | [] => []
  | r :: rest => Row.encode pay r :: Row.encodeItems pay rest

end

mutual

/-- Reads a type expression. -/
def TypeExpr.decode (pay : Data → Option π) : Nat → Data → Option (TypeExpr π)
  | 0, _ => none
  | n + 1, d =>
      match d.fields? ["kind", "span", "attributes"] with
      | some [kind, span, attributes] =>
          return ⟨← TypeShape.decode pay n kind, ← Span.decode span,
            ← Attribute.decodeAll pay attributes⟩
      | _ => none

/-- Reads a form of type. -/
def TypeShape.decode (pay : Data → Option π) : Nat → Data → Option (TypeShape π)
  | 0, _ => none
  | n + 1, d =>
      match d.choice? with
      | some ("Any", .null) => some .any
      | some ("Var", name) => return .var (← name.string?)
      | some ("Arrow", .list [label, domain, codomain]) =>
          return .arrow (← ArgLabel.decode label) (← TypeExpr.decode pay n domain)
            (← TypeExpr.decode pay n codomain)
      | some ("Tuple", elements) => return .tuple (← elements.list? (TypeExpr.decode pay n))
      | some ("Constr", .list [name, args]) =>
          return .constr (← decodeQualName name) (← args.list? (TypeExpr.decode pay n))
      | some ("Object", .list [methods, openness]) =>
          return .object (← methods.list? (Data.pair? decodeName (TypeExpr.decode pay n)))
            (← Openness.decode openness)
      | some ("Alias", .list [body, name]) =>
          return .aliased (← TypeExpr.decode pay n body) (← decodeName name)
      | some ("Variant", .list [rows, openness, lower]) =>
          return .variant (← rows.list? (Row.decode pay n)) (← Openness.decode openness)
            (← lower.option? (Data.list? Data.string?))
      | some ("Poly", .list [vars, body]) =>
          return .poly (← vars.list? decodeName) (← TypeExpr.decode pay n body)
      | some ("Package", name) => return .package (← decodeQualName name)
      | some ("Extension", ext) => return .extension (← Extension.decode pay ext)
      | _ => none

/-- Reads a row. -/
def Row.decode (pay : Data → Option π) : Nat → Data → Option (Row π)
  | 0, _ => none
  | n + 1, d =>
      match d.fields? ["kind", "span", "attributes"] with
      | some [kind, span, attributes] =>
          return ⟨← RowShape.decode pay n kind, ← Span.decode span,
            ← Attribute.decodeAll pay attributes⟩
      | _ => none

/-- Reads a form of row. -/
def RowShape.decode (pay : Data → Option π) : Nat → Data → Option (RowShape π)
  | 0, _ => none
  | n + 1, d =>
      match d.choice? with
      | some ("Tag", .object members) =>
          return .tag (← decodeName (Data.member members "label"))
            (← (Data.member members "constant").bool?)
            (← (Data.member members "args").list? (TypeExpr.decode pay n))
      | some ("Inherit", t) => return .inherit (← TypeExpr.decode pay n t)
      | _ => none

end

end DeriveKit
