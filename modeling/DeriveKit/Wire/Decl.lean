import DeriveKit.Tree.Decl
import DeriveKit.Wire.Type

/-!
# DeriveKit.Wire.Decl

Declarations of types and values in the exchange format, given a format for payloads. Flags such as
privacy and mutability are written as the words that stand for them (`encodePrivate`,
`encodeMutable`).
-/

namespace DeriveKit

namespace Variance

/-- A variance as a choice. -/
def encode : Variance → Data
  | invariant => .string "Invariant"
  | covariant => .string "Covariant"
  | contravariant => .string "Contravariant"

/-- Reads a variance. -/
def decode : Data → Option Variance :=
  Data.enum? [("Invariant", invariant), ("Covariant", covariant), ("Contravariant", contravariant)]

end Variance

/-- Whether a declaration is private, as a choice. -/
def encodePrivate (isPrivate : Bool) : Data := .string (if isPrivate then "Private" else "Public")

/-- Reads whether a declaration is private. -/
def decodePrivate : Data → Option Bool := Data.enum? [("Public", false), ("Private", true)]

/-- Whether a field can be assigned, as a choice. -/
def encodeMutable (isMutable : Bool) : Data :=
  .string (if isMutable then "Mutable" else "Immutable")

/-- Reads whether a field can be assigned. -/
def decodeMutable : Data → Option Bool := Data.enum? [("Immutable", false), ("Mutable", true)]

variable {π : Type}

/-- A parameter as a structure. -/
def TypeParam.encode (pay : π → Data) (param : TypeParam π) : Data :=
  .object [("ty", param.type.encode pay), ("variance", param.variance.encode)]

/-- Reads a parameter. -/
def TypeParam.decode (pay : Data → Option π) (n : Nat) (d : Data) : Option (TypeParam π) :=
  match d.fields? ["ty", "variance"] with
  | some [type, variance] => return ⟨← TypeExpr.decode pay n type, ← Variance.decode variance⟩
  | _ => none

/-- A labelled field as a structure. -/
def Label.encode (pay : π → Data) (label : Label π) : Data :=
  .object [("name", encodeName label.name), ("mutable", encodeMutable label.isMutable),
    ("ty", label.type.encode pay), ("attributes", Attribute.encodeAll pay label.attributes),
    ("span", label.span.encode)]

/-- Reads a labelled field. -/
def Label.decode (pay : Data → Option π) (n : Nat) (d : Data) : Option (Label π) :=
  match d.fields? ["name", "mutable", "ty", "attributes", "span"] with
  | some [name, isMutable, type, attributes, span] =>
      return ⟨← decodeName name, ← decodeMutable isMutable, ← TypeExpr.decode pay n type,
        ← Attribute.decodeAll pay attributes, ← Span.decode span⟩
  | _ => none

/-- What a constructor takes, as a choice. -/
def ConstructorArgs.encode (pay : π → Data) : ConstructorArgs π → Data
  | .tuple types => .choice "Tuple" (.ofList (TypeExpr.encode pay) types)
  | .record labels => .choice "Record" (.ofList (Label.encode pay) labels)

/-- Reads what a constructor takes. -/
def ConstructorArgs.decode (pay : Data → Option π) (n : Nat) (d : Data) :
    Option (ConstructorArgs π) :=
  match d.choice? with
  | some ("Tuple", types) => return .tuple (← types.list? (TypeExpr.decode pay n))
  | some ("Record", labels) => return .record (← labels.list? (Label.decode pay n))
  | _ => none

/-- A constructor as a structure. -/
def Constructor.encode (pay : π → Data) (c : Constructor π) : Data :=
  .object [("name", encodeName c.name), ("args", c.args.encode pay),
    ("res", .ofOption (TypeExpr.encode pay) c.result),
    ("attributes", Attribute.encodeAll pay c.attributes), ("span", c.span.encode)]

/-- Reads a constructor. -/
def Constructor.decode (pay : Data → Option π) (n : Nat) (d : Data) : Option (Constructor π) :=
  match d.fields? ["name", "args", "res", "attributes", "span"] with
  | some [name, args, result, attributes, span] =>
      return ⟨← decodeName name, ← ConstructorArgs.decode pay n args,
        ← result.option? (TypeExpr.decode pay n), ← Attribute.decodeAll pay attributes,
        ← Span.decode span⟩
  | _ => none

/-- The body of a declaration as a choice. -/
def TypeBody.encode (pay : π → Data) : TypeBody π → Data
  | .abstract => .string "Abstract"
  | .variant constructors => .choice "Variant" (.ofList (Constructor.encode pay) constructors)
  | .record labels => .choice "Record" (.ofList (Label.encode pay) labels)
  | .extensible => .string "Open"

/-- Reads the body of a declaration. -/
def TypeBody.decode (pay : Data → Option π) (n : Nat) (d : Data) : Option (TypeBody π) :=
  match d.choice? with
  | some ("Abstract", .null) => some .abstract
  | some ("Variant", constructors) =>
      return .variant (← constructors.list? (Constructor.decode pay n))
  | some ("Record", labels) => return .record (← labels.list? (Label.decode pay n))
  | some ("Open", .null) => some .extensible
  | _ => none

/-- A type declaration as a structure. -/
def TypeDecl.encode (pay : π → Data) (decl : TypeDecl π) : Data :=
  .object [("name", encodeName decl.name), ("params", .ofList (TypeParam.encode pay) decl.params),
    ("kind", decl.body.encode pay), ("private", encodePrivate decl.isPrivate),
    ("manifest", .ofOption (TypeExpr.encode pay) decl.manifest),
    ("attributes", Attribute.encodeAll pay decl.attributes), ("span", decl.span.encode)]

/-- Reads a type declaration. -/
def TypeDecl.decode (pay : Data → Option π) (n : Nat) (d : Data) : Option (TypeDecl π) :=
  match d.fields? ["name", "params", "kind", "private", "manifest", "attributes", "span"] with
  | some [name, params, body, isPrivate, manifest, attributes, span] =>
      return ⟨← decodeName name, ← params.list? (TypeParam.decode pay n),
        ← TypeBody.decode pay n body, ← decodePrivate isPrivate,
        ← manifest.option? (TypeExpr.decode pay n), ← Attribute.decodeAll pay attributes,
        ← Span.decode span⟩
  | _ => none

/-- The body of an added constructor as a choice. -/
def AddedBody.encode (pay : π → Data) : AddedBody π → Data
  | .declared args result =>
      .choice "Decl" (.list [args.encode pay, .ofOption (TypeExpr.encode pay) result])
  | .rebound name => .choice "Rebind" (encodeQualName name)

/-- Reads the body of an added constructor. -/
def AddedBody.decode (pay : Data → Option π) (n : Nat) (d : Data) : Option (AddedBody π) :=
  match d.choice? with
  | some ("Decl", .list [args, result]) =>
      return .declared (← ConstructorArgs.decode pay n args)
        (← result.option? (TypeExpr.decode pay n))
  | some ("Rebind", name) => return .rebound (← decodeQualName name)
  | _ => none

/-- An added constructor as a structure. -/
def AddedConstructor.encode (pay : π → Data) (c : AddedConstructor π) : Data :=
  .object [("name", encodeName c.name), ("kind", c.body.encode pay),
    ("attributes", Attribute.encodeAll pay c.attributes), ("span", c.span.encode)]

/-- Reads an added constructor. -/
def AddedConstructor.decode (pay : Data → Option π) (n : Nat) (d : Data) :
    Option (AddedConstructor π) :=
  match d.fields? ["name", "kind", "attributes", "span"] with
  | some [name, body, attributes, span] =>
      return ⟨← decodeName name, ← AddedBody.decode pay n body,
        ← Attribute.decodeAll pay attributes, ← Span.decode span⟩
  | _ => none

/-- A type extension as a structure. -/
def TypeExtension.encode (pay : π → Data) (ext : TypeExtension π) : Data :=
  .object [("path", encodeQualName ext.path),
    ("params", .ofList (TypeParam.encode pay) ext.params),
    ("constructors", .ofList (AddedConstructor.encode pay) ext.constructors),
    ("private", encodePrivate ext.isPrivate),
    ("attributes", Attribute.encodeAll pay ext.attributes), ("span", ext.span.encode)]

/-- Reads a type extension. -/
def TypeExtension.decode (pay : Data → Option π) (n : Nat) (d : Data) :
    Option (TypeExtension π) :=
  match d.fields? ["path", "params", "constructors", "private", "attributes", "span"] with
  | some [path, params, constructors, isPrivate, attributes, span] =>
      return ⟨← decodeQualName path, ← params.list? (TypeParam.decode pay n),
        ← constructors.list? (AddedConstructor.decode pay n), ← decodePrivate isPrivate,
        ← Attribute.decodeAll pay attributes, ← Span.decode span⟩
  | _ => none

/-- The declaration of a value as a structure. -/
def ValueDecl.encode (pay : π → Data) (decl : ValueDecl π) : Data :=
  .object [("name", encodeName decl.name), ("ty", decl.type.encode pay),
    ("prim", .ofList .string decl.primitives),
    ("attributes", Attribute.encodeAll pay decl.attributes), ("span", decl.span.encode)]

/-- Reads the declaration of a value. -/
def ValueDecl.decode (pay : Data → Option π) (n : Nat) (d : Data) : Option (ValueDecl π) :=
  match d.fields? ["name", "ty", "prim", "attributes", "span"] with
  | some [name, type, primitives, attributes, span] =>
      return ⟨← decodeName name, ← TypeExpr.decode pay n type, ← primitives.list? Data.string?,
        ← Attribute.decodeAll pay attributes, ← Span.decode span⟩
  | _ => none

end DeriveKit
