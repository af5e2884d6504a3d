import DeriveKit.Text.Decl
import DeriveKit.Text.Expr
import DeriveKit.Tree.Module

/-!
# DeriveKit.Text.Module

Source text of items, module expressions and module types, given the text of payloads. No
parentheses stand around a functor that is applied, so the text of such an application is that of a
functor whose body is applied (`ModuleExprShape.render`).
-/

namespace DeriveKit

/-- The name of a module, or the wildcard of one without. -/
def moduleNameText (name : Located (Option String)) : String := name.value.getD "_"

variable {π : Type}

/-- Source text of an opening as an item. -/
def OpenDecl.render (pay : π → String) (decl : OpenDecl π) : String :=
  "open" ++ (if decl.override then "!" else "") ++ " " ++ decl.module.value.text ++
    Attribute.renderAll pay "@@" decl.attributes

mutual

/-- Source text of an item of a structure. -/
def StructureItem.render (pay : π → String) : StructureItem π → String
  | ⟨shape, _⟩ => StructureShape.render pay shape

/-- Source text of a form of item. -/
def StructureShape.render (pay : π → String) : StructureShape π → String
  | .eval expr attributes => expr.render pay .top ++ Attribute.renderAll pay "@@" attributes
  | .value recursion bindings => "let " ++ recursion.text ++ Binding.renderGroup pay bindings
  | .primitive decl => decl.render pay
  | .types recursion decls => TypeDecl.renderGroup pay (recursion = .nonrecursive) decls
  | .extend ext => ext.render pay
  | .module binding => "module " ++ ModuleBinding.render pay binding
  | .recModules bindings =>
      "module rec " ++ joinWith " and " (ModuleBinding.renderAll pay bindings)
  | .moduleType decl => ModuleTypeDecl.render pay decl
  | .openModule decl => decl.render pay
  | .include module attributes =>
      "include " ++ ModuleExpr.render pay module ++ Attribute.renderAll pay "@@" attributes
  | .attribute attr => attr.render pay "@@@"
  | .extension ext attributes => ext.render pay "%%" ++ Attribute.renderAll pay "@@" attributes

/-- Source texts of the items of a structure. -/
def StructureItem.renderAll (pay : π → String) : List (StructureItem π) → List String
  | [] => []
  | item :: rest => StructureItem.render pay item :: StructureItem.renderAll pay rest

/-- Source text of an item of a signature. -/
def SignatureItem.render (pay : π → String) : SignatureItem π → String
  | ⟨shape, _⟩ => SignatureShape.render pay shape

/-- Source text of a form of item. -/
def SignatureShape.render (pay : π → String) : SignatureShape π → String
  | .value decl => decl.render pay
  | .types recursion decls => TypeDecl.renderGroup pay (recursion = .nonrecursive) decls
  | .extend ext => ext.render pay
  | .module decl => "module " ++ ModuleDecl.render pay decl
  | .recModules decls => "module rec " ++ joinWith " and " (ModuleDecl.renderAll pay decls)
  | .moduleType decl => ModuleTypeDecl.render pay decl
  | .openModule decl => decl.render pay
  | .include type attributes =>
      "include " ++ ModuleType.render pay type ++ Attribute.renderAll pay "@@" attributes
  | .attribute attr => attr.render pay "@@@"
  | .extension ext attributes => ext.render pay "%%" ++ Attribute.renderAll pay "@@" attributes

/-- Source texts of the items of a signature. -/
def SignatureItem.renderAll (pay : π → String) : List (SignatureItem π) → List String
  | [] => []
  | item :: rest => SignatureItem.render pay item :: SignatureItem.renderAll pay rest

/-- Source text of a module expression. -/
def ModuleExpr.render (pay : π → String) : ModuleExpr π → String
  | ⟨shape, _, attributes⟩ =>
      ModuleExprShape.render pay shape ++ Attribute.renderAll pay "@" attributes

/-- Source text of a form of module expression. -/
def ModuleExprShape.render (pay : π → String) : ModuleExprShape π → String
  | .ident name => name.value.text
  | .structure items => "struct" ++ leadEach " " (StructureItem.renderAll pay items) ++ " end"
  | .functor param body =>
      "functor " ++ FunctorParam.render pay param ++ " -> " ++ ModuleExpr.render pay body
  | .apply functor arg => ModuleExpr.render pay functor ++ "(" ++ ModuleExpr.render pay arg ++ ")"
  | .constraint module type =>
      "(" ++ ModuleExpr.render pay module ++ " : " ++ ModuleType.render pay type ++ ")"
  | .extension ext => ext.render pay "%"

/-- Source text of a module type. -/
def ModuleType.render (pay : π → String) : ModuleType π → String
  | ⟨shape, _, attributes⟩ =>
      ModuleTypeShape.render pay shape ++ Attribute.renderAll pay "@" attributes

/-- Source text of a form of module type. -/
def ModuleTypeShape.render (pay : π → String) : ModuleTypeShape π → String
  | .ident name => name.value.text
  | .signature items => "sig" ++ leadEach " " (SignatureItem.renderAll pay items) ++ " end"
  | .functor param body =>
      "functor " ++ FunctorParam.render pay param ++ " -> " ++ ModuleType.render pay body
  | .aliased module => "(module " ++ module.value.text ++ ")"
  | .extension ext => ext.render pay "%"

/-- Source text of the parameter of a functor. -/
def FunctorParam.render (pay : π → String) : FunctorParam π → String
  | .unit => "()"
  | .named name type => "(" ++ moduleNameText name ++ " : " ++ ModuleType.render pay type ++ ")"

/-- Source text of a module binding. -/
def ModuleBinding.render (pay : π → String) : ModuleBinding π → String
  | ⟨name, body, attributes, _⟩ =>
      moduleNameText name ++ " = " ++ ModuleExpr.render pay body ++
        Attribute.renderAll pay "@@" attributes

/-- Source texts of module bindings. -/
def ModuleBinding.renderAll (pay : π → String) : List (ModuleBinding π) → List String
  | [] => []
  | b :: rest => ModuleBinding.render pay b :: ModuleBinding.renderAll pay rest

/-- Source text of a module declaration. -/
def ModuleDecl.render (pay : π → String) : ModuleDecl π → String
  | ⟨name, type, attributes, _⟩ =>
      moduleNameText name ++ " : " ++ ModuleType.render pay type ++
        Attribute.renderAll pay "@@" attributes

/-- Source texts of module declarations. -/
def ModuleDecl.renderAll (pay : π → String) : List (ModuleDecl π) → List String
  | [] => []
  | d :: rest => ModuleDecl.render pay d :: ModuleDecl.renderAll pay rest

/-- Source text of the declaration of a module type. -/
def ModuleTypeDecl.render (pay : π → String) : ModuleTypeDecl π → String
  | ⟨name, none, attributes, _⟩ =>
      "module type " ++ name.value ++ Attribute.renderAll pay "@@" attributes
  | ⟨name, some type, attributes, _⟩ =>
      "module type " ++ name.value ++ " = " ++ ModuleType.render pay type ++
        Attribute.renderAll pay "@@" attributes

end

end DeriveKit
