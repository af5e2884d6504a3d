import DeriveKit.Tree.Module
import DeriveKit.Wire.Decl
import DeriveKit.Wire.Expr

/-!
# DeriveKit.Wire.Module

Items, module expressions and module types in the exchange format, given a format for payloads. The
writers recurse on the tree; the readers (`StructureItem.decode`, `ModuleExpr.decode`) are given a
bound on the depth of the value, which becomes smaller at each node.
-/

namespace DeriveKit

variable {π : Type}

mutual

/-- An item of a structure as a structure. -/
def StructureItem.encode (pay : π → Data) : StructureItem π → Data
  | ⟨shape, span⟩ => .object [("kind", StructureShape.encode pay shape), ("span", span.encode)]

/-- A form of item as a choice. -/
def StructureShape.encode (pay : π → Data) : StructureShape π → Data
  | .eval expr attributes =>
      .choice "Eval" (.list [expr.encode pay, Attribute.encodeAll pay attributes])
  | .value recursion bindings =>
      .choice "Value" (.list [recursion.encode, .ofList (Binding.encode pay) bindings])
  | .primitive decl => .choice "Primitive" (decl.encode pay)
  | .types recursion decls =>
      .choice "Type" (.list [recursion.encode, .ofList (TypeDecl.encode pay) decls])
  | .extend ext => .choice "TypeExt" (ext.encode pay)
  | .module binding => .choice "Module" (ModuleBinding.encode pay binding)
  | .recModules bindings => .choice "RecModule" (.list (ModuleBinding.encodeItems pay bindings))
  | .moduleType decl => .choice "ModType" (ModuleTypeDecl.encode pay decl)
  | .openModule decl => .choice "Open" (decl.encode pay)
  | .include module attributes =>
      .choice "Include" (.list [ModuleExpr.encode pay module, Attribute.encodeAll pay attributes])
  | .attribute attr => .choice "Attribute" (attr.encode pay)
  | .extension ext attributes =>
      .choice "Extension" (.list [ext.encode pay, Attribute.encodeAll pay attributes])

/-- The items of a list of items. -/
def StructureItem.encodeItems (pay : π → Data) : List (StructureItem π) → List Data
  | [] => []
  | item :: rest => StructureItem.encode pay item :: StructureItem.encodeItems pay rest

/-- An item of a signature as a structure. -/
def SignatureItem.encode (pay : π → Data) : SignatureItem π → Data
  | ⟨shape, span⟩ => .object [("kind", SignatureShape.encode pay shape), ("span", span.encode)]

/-- A form of item as a choice. -/
def SignatureShape.encode (pay : π → Data) : SignatureShape π → Data
  | .value decl => .choice "Value" (decl.encode pay)
  | .types recursion decls =>
      .choice "Type" (.list [recursion.encode, .ofList (TypeDecl.encode pay) decls])
  | .extend ext => .choice "TypeExt" (ext.encode pay)
  | .module decl => .choice "Module" (ModuleDecl.encode pay decl)
  | .recModules decls => .choice "RecModule" (.list (ModuleDecl.encodeItems pay decls))
  | .moduleType decl => .choice "ModType" (ModuleTypeDecl.encode pay decl)
  | .openModule decl => .choice "Open" (decl.encode pay)
  | .include type attributes =>
      .choice "Include" (.list [ModuleType.encode pay type, Attribute.encodeAll pay attributes])
  | .attribute attr => .choice "Attribute" (attr.encode pay)
  | .extension ext attributes =>
      .choice "Extension" (.list [ext.encode pay, Attribute.encodeAll pay attributes])

/-- The items of a list of items. -/
def SignatureItem.encodeItems (pay : π → Data) : List (SignatureItem π) → List Data
  | [] => []
  | item :: rest => SignatureItem.encode pay item :: SignatureItem.encodeItems pay rest

/-- A module expression as a structure. -/
def ModuleExpr.encode (pay : π → Data) : ModuleExpr π → Data
  | ⟨shape, span, attributes⟩ =>
      .object [("kind", ModuleExprShape.encode pay shape), ("span", span.encode),
        ("attributes", Attribute.encodeAll pay attributes)]

/-- A form of module expression as a choice. -/
def ModuleExprShape.encode (pay : π → Data) : ModuleExprShape π → Data
  | .ident name => .choice "Ident" (encodeQualName name)
  | .structure items => .choice "Structure" (.list (StructureItem.encodeItems pay items))
  | .functor param body =>
      .choice "Functor" (.list [FunctorParam.encode pay param, ModuleExpr.encode pay body])
  | .apply functor arg =>
      .choice "Apply" (.list [ModuleExpr.encode pay functor, ModuleExpr.encode pay arg])
  | .constraint module type =>
      .choice "Constraint" (.list [ModuleExpr.encode pay module, ModuleType.encode pay type])
  | .extension ext => .choice "Extension" (ext.encode pay)

/-- A module type as a structure. -/
def ModuleType.encode (pay : π → Data) : ModuleType π → Data
  | ⟨shape, span, attributes⟩ =>
      .object [("kind", ModuleTypeShape.encode pay shape), ("span", span.encode),
        ("attributes", Attribute.encodeAll pay attributes)]

/-- A form of module type as a choice. -/
def ModuleTypeShape.encode (pay : π → Data) : ModuleTypeShape π → Data
  | .ident name => .choice "Ident" (encodeQualName name)
  | .signature items => .choice "Signature" (.list (SignatureItem.encodeItems pay items))
  | .functor param body =>
      .choice "Functor" (.list [FunctorParam.encode pay param, ModuleType.encode pay body])
  | .aliased module => .choice "Alias" (encodeQualName module)
  | .extension ext => .choice "Extension" (ext.encode pay)

/-- A module type that may be absent. -/
def ModuleType.encodeOption (pay : π → Data) : Option (ModuleType π) → Data
  | none => .null
  | some type => ModuleType.encode pay type

/-- The parameter of a functor as a choice. -/
def FunctorParam.encode (pay : π → Data) : FunctorParam π → Data
  | .unit => .string "Unit"
  | .named name type =>
      .choice "Named" (.list [encodeModuleName name, ModuleType.encode pay type])

/-- A module binding as a structure. -/
def ModuleBinding.encode (pay : π → Data) : ModuleBinding π → Data
  | ⟨name, body, attributes, span⟩ =>
      .object [("name", encodeModuleName name), ("expr", ModuleExpr.encode pay body),
        ("attributes", Attribute.encodeAll pay attributes), ("span", span.encode)]

/-- The items of a list of module bindings. -/
def ModuleBinding.encodeItems (pay : π → Data) : List (ModuleBinding π) → List Data
  | [] => []
  | b :: rest => ModuleBinding.encode pay b :: ModuleBinding.encodeItems pay rest

/-- A module declaration as a structure. -/
def ModuleDecl.encode (pay : π → Data) : ModuleDecl π → Data
  | ⟨name, type, attributes, span⟩ =>
      .object [("name", encodeModuleName name), ("ty", ModuleType.encode pay type),
        ("attributes", Attribute.encodeAll pay attributes), ("span", span.encode)]

/-- The items of a list of module declarations. -/
def ModuleDecl.encodeItems (pay : π → Data) : List (ModuleDecl π) → List Data
  | [] => []
  | d :: rest => ModuleDecl.encode pay d :: ModuleDecl.encodeItems pay rest

/-- The declaration of a module type as a structure. -/
def ModuleTypeDecl.encode (pay : π → Data) : ModuleTypeDecl π → Data
  | ⟨name, type, attributes, span⟩ =>
      .object [("name", encodeName name), ("ty", ModuleType.encodeOption pay type),
        ("attributes", Attribute.encodeAll pay attributes), ("span", span.encode)]

end

mutual

/-- Reads an item of a structure. -/
def StructureItem.decode (pay : Data → Option π) : Nat → Data → Option (StructureItem π)
  | 0, _ => none
  | n + 1, d =>
      match d.fields? ["kind", "span"] with
      | some [kind, span] => return ⟨← StructureShape.decode pay n kind, ← Span.decode span⟩
      | _ => none

/-- Reads a form of item. -/
def StructureShape.decode (pay : Data → Option π) : Nat → Data → Option (StructureShape π)
  | 0, _ => none
  | n + 1, d =>
      match d.choice? with
      | some ("Eval", .list [expr, attributes]) =>
          return .eval (← Expr.decode pay n expr) (← Attribute.decodeAll pay attributes)
      | some ("Value", .list [recursion, bindings]) =>
          return .value (← Recursion.decode recursion) (← bindings.list? (Binding.decode pay n))
      | some ("Primitive", decl) => return .primitive (← ValueDecl.decode pay n decl)
      | some ("Type", .list [recursion, decls]) =>
          return .types (← Recursion.decode recursion) (← decls.list? (TypeDecl.decode pay n))
      | some ("TypeExt", ext) => return .extend (← TypeExtension.decode pay n ext)
      | some ("Module", binding) => return .module (← ModuleBinding.decode pay n binding)
      | some ("RecModule", bindings) =>
          return .recModules (← bindings.list? (ModuleBinding.decode pay n))
      | some ("ModType", decl) => return .moduleType (← ModuleTypeDecl.decode pay n decl)
      | some ("Open", decl) => return .openModule (← OpenDecl.decode pay decl)
      | some ("Include", .list [module, attributes]) =>
          return .include (← ModuleExpr.decode pay n module) (← Attribute.decodeAll pay attributes)
      | some ("Attribute", attr) => return .attribute (← Attribute.decode pay attr)
      | some ("Extension", .list [ext, attributes]) =>
          return .extension (← Extension.decode pay ext) (← Attribute.decodeAll pay attributes)
      | _ => none

/-- Reads an item of a signature. -/
def SignatureItem.decode (pay : Data → Option π) : Nat → Data → Option (SignatureItem π)
  | 0, _ => none
  | n + 1, d =>
      match d.fields? ["kind", "span"] with
      | some [kind, span] => return ⟨← SignatureShape.decode pay n kind, ← Span.decode span⟩
      | _ => none

/-- Reads a form of item. -/
def SignatureShape.decode (pay : Data → Option π) : Nat → Data → Option (SignatureShape π)
  | 0, _ => none
  | n + 1, d =>
      match d.choice? with
      | some ("Value", decl) => return .value (← ValueDecl.decode pay n decl)
      | some ("Type", .list [recursion, decls]) =>
          return .types (← Recursion.decode recursion) (← decls.list? (TypeDecl.decode pay n))
      | some ("TypeExt", ext) => return .extend (← TypeExtension.decode pay n ext)
      | some ("Module", decl) => return .module (← ModuleDecl.decode pay n decl)
      | some ("RecModule", decls) => return .recModules (← decls.list? (ModuleDecl.decode pay n))
      | some ("ModType", decl) => return .moduleType (← ModuleTypeDecl.decode pay n decl)
      | some ("Open", decl) => return .openModule (← OpenDecl.decode pay decl)
      | some ("Include", .list [type, attributes]) =>
          return .include (← ModuleType.decode pay n type) (← Attribute.decodeAll pay attributes)
      | some ("Attribute", attr) => return .attribute (← Attribute.decode pay attr)
      | some ("Extension", .list [ext, attributes]) =>
          return .extension (← Extension.decode pay ext) (← Attribute.decodeAll pay attributes)
      | _ => none

/-- Reads a module expression. -/
def ModuleExpr.decode (pay : Data → Option π) : Nat → Data → Option (ModuleExpr π)
  | 0, _ => none
  | n + 1, d =>
      match d.fields? ["kind", "span", "attributes"] with
      | some [kind, span, attributes] =>
          return ⟨← ModuleExprShape.decode pay n kind, ← Span.decode span,
            ← Attribute.decodeAll pay attributes⟩
      | _ => none

/-- Reads a form of module expression. -/
def ModuleExprShape.decode (pay : Data → Option π) : Nat → Data → Option (ModuleExprShape π)
  | 0, _ => none
  | n + 1, d =>
      match d.choice? with
      | some ("Ident", name) => return .ident (← decodeQualName name)
      | some ("Structure", items) => return .structure (← items.list? (StructureItem.decode pay n))
      | some ("Functor", .list [param, body]) =>
          return .functor (← FunctorParam.decode pay n param) (← ModuleExpr.decode pay n body)
      | some ("Apply", .list [functor, arg]) =>
          return .apply (← ModuleExpr.decode pay n functor) (← ModuleExpr.decode pay n arg)
      | some ("Constraint", .list [module, type]) =>
          return .constraint (← ModuleExpr.decode pay n module) (← ModuleType.decode pay n type)
      | some ("Extension", ext) => return .extension (← Extension.decode pay ext)
      | _ => none

/-- Reads a module type. -/
def ModuleType.decode (pay : Data → Option π) : Nat → Data → Option (ModuleType π)
  | 0, _ => none
  | n + 1, d =>
      match d.fields? ["kind", "span", "attributes"] with
      | some [kind, span, attributes] =>
          return ⟨← ModuleTypeShape.decode pay n kind, ← Span.decode span,
            ← Attribute.decodeAll pay attributes⟩
      | _ => none

/-- Reads a form of module type. -/
def ModuleTypeShape.decode (pay : Data → Option π) : Nat → Data → Option (ModuleTypeShape π)
  | 0, _ => none
  | n + 1, d =>
      match d.choice? with
      | some ("Ident", name) => return .ident (← decodeQualName name)
      | some ("Signature", items) => return .signature (← items.list? (SignatureItem.decode pay n))
      | some ("Functor", .list [param, body]) =>
          return .functor (← FunctorParam.decode pay n param) (← ModuleType.decode pay n body)
      | some ("Alias", module) => return .aliased (← decodeQualName module)
      | some ("Extension", ext) => return .extension (← Extension.decode pay ext)
      | _ => none

/-- Reads the parameter of a functor. -/
def FunctorParam.decode (pay : Data → Option π) : Nat → Data → Option (FunctorParam π)
  | 0, _ => none
  | n + 1, d =>
      match d.choice? with
      | some ("Unit", .null) => some .unit
      | some ("Named", .list [name, type]) =>
          return .named (← decodeModuleName name) (← ModuleType.decode pay n type)
      | _ => none

/-- Reads a module binding. -/
def ModuleBinding.decode (pay : Data → Option π) : Nat → Data → Option (ModuleBinding π)
  | 0, _ => none
  | n + 1, d =>
      match d.fields? ["name", "expr", "attributes", "span"] with
      | some [name, body, attributes, span] =>
          return ⟨← decodeModuleName name, ← ModuleExpr.decode pay n body,
            ← Attribute.decodeAll pay attributes, ← Span.decode span⟩
      | _ => none

/-- Reads a module declaration. -/
def ModuleDecl.decode (pay : Data → Option π) : Nat → Data → Option (ModuleDecl π)
  | 0, _ => none
  | n + 1, d =>
      match d.fields? ["name", "ty", "attributes", "span"] with
      | some [name, type, attributes, span] =>
          return ⟨← decodeModuleName name, ← ModuleType.decode pay n type,
            ← Attribute.decodeAll pay attributes, ← Span.decode span⟩
      | _ => none

/-- Reads the declaration of a module type. -/
def ModuleTypeDecl.decode (pay : Data → Option π) : Nat → Data → Option (ModuleTypeDecl π)
  | 0, _ => none
  | n + 1, d =>
      match d.fields? ["name", "ty", "attributes", "span"] with
      | some [name, type, attributes, span] =>
          return ⟨← decodeName name, ← type.option? (ModuleType.decode pay n),
            ← Attribute.decodeAll pay attributes, ← Span.decode span⟩
      | _ => none

end

end DeriveKit
