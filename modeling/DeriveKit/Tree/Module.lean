import DeriveKit.Tree.Decl
import DeriveKit.Tree.Expr

/-!
# DeriveKit.Tree.Module

Items of structures (`StructureItem`) and of signatures (`SignatureItem`), module expressions
(`ModuleExpr`) and module types (`ModuleType`). They hold each other: a module expression may be a
structure, and an item may bind a module.
-/

namespace DeriveKit

mutual

/-- An item of a structure and where it stands. -/
structure StructureItem (π : Type) where
  shape : StructureShape π
  span : Span

/-- The forms of an item of a structure. -/
inductive StructureShape (π : Type)
  | eval (expr : Expr π) (attributes : List (Attribute π))
  | value (recursion : Recursion) (bindings : List (Binding π))
  | primitive (decl : ValueDecl π)
  | types (recursion : Recursion) (decls : List (TypeDecl π))
  | extend (ext : TypeExtension π)
  | module (binding : ModuleBinding π)
  | recModules (bindings : List (ModuleBinding π))
  | moduleType (decl : ModuleTypeDecl π)
  | openModule (decl : OpenDecl π)
  | include (module : ModuleExpr π) (attributes : List (Attribute π))
  | attribute (attr : Attribute π)
  | extension (ext : Extension π) (attributes : List (Attribute π))

/-- An item of a signature and where it stands. -/
structure SignatureItem (π : Type) where
  shape : SignatureShape π
  span : Span

/-- The forms of an item of a signature. -/
inductive SignatureShape (π : Type)
  | value (decl : ValueDecl π)
  | types (recursion : Recursion) (decls : List (TypeDecl π))
  | extend (ext : TypeExtension π)
  | module (decl : ModuleDecl π)
  | recModules (decls : List (ModuleDecl π))
  | moduleType (decl : ModuleTypeDecl π)
  | openModule (decl : OpenDecl π)
  | include (moduleType : ModuleType π) (attributes : List (Attribute π))
  | attribute (attr : Attribute π)
  | extension (ext : Extension π) (attributes : List (Attribute π))

/-- A module expression, where it stands, and its attributes. -/
structure ModuleExpr (π : Type) where
  shape : ModuleExprShape π
  span : Span
  attributes : List (Attribute π)

/-- The forms of a module expression. -/
inductive ModuleExprShape (π : Type)
  | ident (name : Located QualName)
  | structure (items : List (StructureItem π))
  | functor (param : FunctorParam π) (body : ModuleExpr π)
  | apply (functor arg : ModuleExpr π)
  | constraint (module : ModuleExpr π) (type : ModuleType π)
  | extension (ext : Extension π)

/-- A module type, where it stands, and its attributes. -/
structure ModuleType (π : Type) where
  shape : ModuleTypeShape π
  span : Span
  attributes : List (Attribute π)

/-- The forms of a module type. -/
inductive ModuleTypeShape (π : Type)
  | ident (name : Located QualName)
  | signature (items : List (SignatureItem π))
  | functor (param : FunctorParam π) (body : ModuleType π)
  | aliased (module : Located QualName)
  | extension (ext : Extension π)

/-- The parameter of a functor: none to speak of, or a module of a type, perhaps unnamed. -/
inductive FunctorParam (π : Type)
  | unit
  | named (name : Located (Option String)) (type : ModuleType π)

/-- A module defined in a structure, perhaps unnamed. -/
structure ModuleBinding (π : Type) where
  name : Located (Option String)
  body : ModuleExpr π
  attributes : List (Attribute π)
  span : Span

/-- A module declared in a signature, perhaps unnamed. -/
structure ModuleDecl (π : Type) where
  name : Located (Option String)
  type : ModuleType π
  attributes : List (Attribute π)
  span : Span

/-- A module type that is declared and, unless it is abstract, defined. -/
structure ModuleTypeDecl (π : Type) where
  name : Located String
  type : Option (ModuleType π)
  attributes : List (Attribute π)
  span : Span

end

variable {π : Type}

/-- A module expression made of items, without attributes. -/
def ModuleExpr.structure (items : List (StructureItem π)) (span : Span) : ModuleExpr π :=
  ⟨.structure items, span, []⟩

/-- A module referred to by name. -/
def ModuleExpr.ident (name : QualName) (span : Span) : ModuleExpr π :=
  ⟨.ident ⟨name, span⟩, span, []⟩

/-- A module type made of items, without attributes. -/
def ModuleType.signature (items : List (SignatureItem π)) (span : Span) : ModuleType π :=
  ⟨.signature items, span, []⟩

/-- A module type referred to by name. -/
def ModuleType.ident (name : QualName) (span : Span) : ModuleType π :=
  ⟨.ident ⟨name, span⟩, span, []⟩

namespace StructureItem

/-- An expression evaluated for its effect. -/
def eval (expr : Expr π) (span : Span) : StructureItem π := ⟨.eval expr [], span⟩

/-- A group of value bindings. -/
def value (recursion : Recursion) (bindings : List (Binding π)) (span : Span) : StructureItem π :=
  ⟨.value recursion bindings, span⟩

/-- A group of type declarations. -/
def types (recursion : Recursion) (decls : List (TypeDecl π)) (span : Span) : StructureItem π :=
  ⟨.types recursion decls, span⟩

/-- A type extension. -/
def extend (ext : TypeExtension π) (span : Span) : StructureItem π := ⟨.extend ext, span⟩

/-- A named module made of items. -/
def module (name : String) (items : List (StructureItem π)) (span : Span) : StructureItem π :=
  ⟨.module ⟨⟨some name, span⟩, .structure items span, [], span⟩, span⟩

/-- The expression that the item evaluates, if it does so without attributes on the item. -/
def bareEval? (item : StructureItem π) : Option (Expr π) :=
  match item.shape with
  | .eval expr [] => some expr
  | _ => none

end StructureItem

namespace SignatureItem

/-- A value of the given type. -/
def value (name : String) (type : TypeExpr π) (span : Span) : SignatureItem π :=
  ⟨.value ⟨⟨name, span⟩, type, [], [], span⟩, span⟩

/-- A group of type declarations. -/
def types (recursion : Recursion) (decls : List (TypeDecl π)) (span : Span) : SignatureItem π :=
  ⟨.types recursion decls, span⟩

/-- A type extension. -/
def extend (ext : TypeExtension π) (span : Span) : SignatureItem π := ⟨.extend ext, span⟩

/-- A named module with the given items in its signature. -/
def module (name : String) (items : List (SignatureItem π)) (span : Span) : SignatureItem π :=
  ⟨.module ⟨⟨some name, span⟩, .signature items span, [], span⟩, span⟩

end SignatureItem

end DeriveKit
