import DeriveKit.Tree.Module

/-!
# DeriveKit.Tree.Traverse

Visiting the payloads of a tree from left to right. `T.traverse f` runs `f` on every payload that
the tree holds at its own level and puts the results in their places; everything else stays. With
a counter it finds how many payloads there are, with a stack it puts others in.
-/

namespace DeriveKit

/-- One level of payload, over payloads `π` further down. -/
inductive PayloadShape (π : Type)
  | structure (items : List (StructureItem π))
  | signature (items : List (SignatureItem π))
  | type (type : TypeExpr π)
  | pattern (pattern : Pattern π) (guard : Option (Expr π))

variable {m : Type → Type} [Monad m] {π ρ : Type}

/-- Visits the payload of an attribute. -/
def Attribute.traverse (f : π → m ρ) (a : Attribute π) : m (Attribute ρ) :=
  return ⟨a.name, ← f a.payload, a.span⟩

/-- Visits the payloads of attributes in order. -/
def Attribute.traverseAll (f : π → m ρ) : List (Attribute π) → m (List (Attribute ρ))
  | [] => return []
  | a :: rest => return (← a.traverse f) :: (← traverseAll f rest)

/-- Visits the payload of an extension node. -/
def Extension.traverse (f : π → m ρ) (x : Extension π) : m (Extension ρ) :=
  return ⟨x.name, ← f x.payload⟩

/-! ## Types -/

mutual

/-- Visits the payloads of a type expression. -/
def TypeExpr.traverse (f : π → m ρ) : TypeExpr π → m (TypeExpr ρ)
  | ⟨shape, span, attributes⟩ =>
      return ⟨← TypeShape.traverse f shape, span, ← Attribute.traverseAll f attributes⟩

/-- Visits the payloads of a form of type. -/
def TypeShape.traverse (f : π → m ρ) : TypeShape π → m (TypeShape ρ)
  | .any => return .any
  | .var name => return .var name
  | .arrow label domain codomain =>
      return .arrow label (← TypeExpr.traverse f domain) (← TypeExpr.traverse f codomain)
  | .tuple elements => return .tuple (← TypeExpr.traverseAll f elements)
  | .constr name args => return .constr name (← TypeExpr.traverseAll f args)
  | .object methods openness => return .object (← TypeExpr.traverseMethods f methods) openness
  | .aliased body name => return .aliased (← TypeExpr.traverse f body) name
  | .variant rows openness lower => return .variant (← Row.traverseAll f rows) openness lower
  | .poly vars body => return .poly vars (← TypeExpr.traverse f body)
  | .package name => return .package name
  | .extension ext => return .extension (← ext.traverse f)

/-- Visits the payloads of type expressions in order. -/
def TypeExpr.traverseAll (f : π → m ρ) : List (TypeExpr π) → m (List (TypeExpr ρ))
  | [] => return []
  | t :: rest => return (← TypeExpr.traverse f t) :: (← TypeExpr.traverseAll f rest)

/-- Visits the payloads of the methods of an object type. -/
def TypeExpr.traverseMethods (f : π → m ρ) :
    List (Located String × TypeExpr π) → m (List (Located String × TypeExpr ρ))
  | [] => return []
  | (name, t) :: rest =>
      return (name, ← TypeExpr.traverse f t) :: (← TypeExpr.traverseMethods f rest)

/-- Visits the payloads of a row. -/
def Row.traverse (f : π → m ρ) : Row π → m (Row ρ)
  | ⟨.tag label constant args, span, attributes⟩ =>
      return ⟨.tag label constant (← TypeExpr.traverseAll f args), span,
        ← Attribute.traverseAll f attributes⟩
  | ⟨.inherit t, span, attributes⟩ =>
      return ⟨.inherit (← TypeExpr.traverse f t), span, ← Attribute.traverseAll f attributes⟩

/-- Visits the payloads of rows in order. -/
def Row.traverseAll (f : π → m ρ) : List (Row π) → m (List (Row ρ))
  | [] => return []
  | r :: rest => return (← Row.traverse f r) :: (← Row.traverseAll f rest)

end

/-- Visits the payloads of a type expression that may be absent. -/
def TypeExpr.traverseOption (f : π → m ρ) : Option (TypeExpr π) → m (Option (TypeExpr ρ))
  | none => return none
  | some t => return some (← t.traverse f)

/-! ## Patterns and expressions -/

mutual

/-- Visits the payloads of a pattern. -/
def Pattern.traverse (f : π → m ρ) : Pattern π → m (Pattern ρ)
  | ⟨shape, span, attributes⟩ =>
      return ⟨← PatternShape.traverse f shape, span, ← Attribute.traverseAll f attributes⟩

/-- Visits the payloads of a form of pattern. -/
def PatternShape.traverse (f : π → m ρ) : PatternShape π → m (PatternShape ρ)
  | .any => return .any
  | .var name => return .var name
  | .aliased pattern name => return .aliased (← Pattern.traverse f pattern) name
  | .constant value => return .constant value
  | .tuple elements => return .tuple (← Pattern.traverseAll f elements)
  | .construct name arg => return .construct name (← Pattern.traverseOption f arg)
  | .variant tag arg => return .variant tag (← Pattern.traverseOption f arg)
  | .record fields openness => return .record (← Pattern.traverseFields f fields) openness
  | .either left right => return .either (← Pattern.traverse f left) (← Pattern.traverse f right)
  | .constraint pattern type =>
      return .constraint (← Pattern.traverse f pattern) (← type.traverse f)

/-- Visits the payloads of patterns in order. -/
def Pattern.traverseAll (f : π → m ρ) : List (Pattern π) → m (List (Pattern ρ))
  | [] => return []
  | p :: rest => return (← Pattern.traverse f p) :: (← Pattern.traverseAll f rest)

/-- Visits the payloads of a pattern that may be absent. -/
def Pattern.traverseOption (f : π → m ρ) : Option (Pattern π) → m (Option (Pattern ρ))
  | none => return none
  | some p => return some (← Pattern.traverse f p)

/-- Visits the payloads of the fields of a record pattern. -/
def Pattern.traverseFields (f : π → m ρ) :
    List (Located QualName × Pattern π) → m (List (Located QualName × Pattern ρ))
  | [] => return []
  | (label, p) :: rest =>
      return (label, ← Pattern.traverse f p) :: (← Pattern.traverseFields f rest)

end

/-- Visits the payloads of an opening. -/
def OpenDecl.traverse (f : π → m ρ) (decl : OpenDecl π) : m (OpenDecl ρ) :=
  return ⟨decl.module, decl.override, ← Attribute.traverseAll f decl.attributes, decl.span⟩

mutual

/-- Visits the payloads of an expression. -/
def Expr.traverse (f : π → m ρ) : Expr π → m (Expr ρ)
  | ⟨shape, span, attributes⟩ =>
      return ⟨← ExprShape.traverse f shape, span, ← Attribute.traverseAll f attributes⟩

/-- Visits the payloads of a form of expression. -/
def ExprShape.traverse (f : π → m ρ) : ExprShape π → m (ExprShape ρ)
  | .ident name => return .ident name
  | .constant value => return .constant value
  | .letIn recursion bindings body =>
      return .letIn recursion (← Binding.traverseAll f bindings) (← Expr.traverse f body)
  | .function cases => return .function (← Case.traverseAll f cases)
  | .lambda label default param body =>
      return .lambda label (← Expr.traverseOption f default) (← param.traverse f)
        (← Expr.traverse f body)
  | .apply function args =>
      return .apply (← Expr.traverse f function) (← Expr.traverseArgs f args)
  | .matchWith scrutinee cases =>
      return .matchWith (← Expr.traverse f scrutinee) (← Case.traverseAll f cases)
  | .tuple elements => return .tuple (← Expr.traverseAll f elements)
  | .construct name arg => return .construct name (← Expr.traverseOption f arg)
  | .variant tag arg => return .variant tag (← Expr.traverseOption f arg)
  | .record fields base =>
      return .record (← Expr.traverseFields f fields) (← Expr.traverseOption f base)
  | .field record label => return .field (← Expr.traverse f record) label
  | .ifThenElse condition onTrue onFalse =>
      return .ifThenElse (← Expr.traverse f condition) (← Expr.traverse f onTrue)
        (← Expr.traverseOption f onFalse)
  | .sequence first second => return .sequence (← Expr.traverse f first) (← Expr.traverse f second)
  | .constraint expr type => return .constraint (← Expr.traverse f expr) (← type.traverse f)
  | .openIn decl body => return .openIn (← decl.traverse f) (← Expr.traverse f body)
  | .extension ext => return .extension (← ext.traverse f)

/-- Visits the payloads of expressions in order. -/
def Expr.traverseAll (f : π → m ρ) : List (Expr π) → m (List (Expr ρ))
  | [] => return []
  | e :: rest => return (← Expr.traverse f e) :: (← Expr.traverseAll f rest)

/-- Visits the payloads of an expression that may be absent. -/
def Expr.traverseOption (f : π → m ρ) : Option (Expr π) → m (Option (Expr ρ))
  | none => return none
  | some e => return some (← Expr.traverse f e)

/-- Visits the payloads of labelled arguments in order. -/
def Expr.traverseArgs (f : π → m ρ) : List (ArgLabel × Expr π) → m (List (ArgLabel × Expr ρ))
  | [] => return []
  | (label, e) :: rest => return (label, ← Expr.traverse f e) :: (← Expr.traverseArgs f rest)

/-- Visits the payloads of the fields of a record. -/
def Expr.traverseFields (f : π → m ρ) :
    List (Located QualName × Expr π) → m (List (Located QualName × Expr ρ))
  | [] => return []
  | (label, e) :: rest => return (label, ← Expr.traverse f e) :: (← Expr.traverseFields f rest)

/-- Visits the payloads of a case. -/
def Case.traverse (f : π → m ρ) : Case π → m (Case ρ)
  | ⟨pattern, guard, body⟩ =>
      return ⟨← pattern.traverse f, ← Expr.traverseOption f guard, ← Expr.traverse f body⟩

/-- Visits the payloads of cases in order. -/
def Case.traverseAll (f : π → m ρ) : List (Case π) → m (List (Case ρ))
  | [] => return []
  | c :: rest => return (← Case.traverse f c) :: (← Case.traverseAll f rest)

/-- Visits the payloads of a binding. -/
def Binding.traverse (f : π → m ρ) : Binding π → m (Binding ρ)
  | ⟨pattern, expr, attributes, span⟩ =>
      return ⟨← pattern.traverse f, ← Expr.traverse f expr,
        ← Attribute.traverseAll f attributes, span⟩

/-- Visits the payloads of bindings in order. -/
def Binding.traverseAll (f : π → m ρ) : List (Binding π) → m (List (Binding ρ))
  | [] => return []
  | b :: rest => return (← Binding.traverse f b) :: (← Binding.traverseAll f rest)

end

/-! ## Declarations -/

/-- Visits the payloads of a parameter. -/
def TypeParam.traverse (f : π → m ρ) (param : TypeParam π) : m (TypeParam ρ) :=
  return ⟨← param.type.traverse f, param.variance⟩

/-- Visits the payloads of a label. -/
def Label.traverse (f : π → m ρ) (label : Label π) : m (Label ρ) :=
  return ⟨label.name, label.isMutable, ← label.type.traverse f,
    ← Attribute.traverseAll f label.attributes, label.span⟩

/-- Visits the payloads of the arguments of a constructor. -/
def ConstructorArgs.traverse (f : π → m ρ) : ConstructorArgs π → m (ConstructorArgs ρ)
  | .tuple types => return .tuple (← TypeExpr.traverseAll f types)
  | .record labels => return .record (← labels.mapM (Label.traverse f))

/-- Visits the payloads of a constructor. -/
def Constructor.traverse (f : π → m ρ) (c : Constructor π) : m (Constructor ρ) :=
  return ⟨c.name, ← c.args.traverse f, ← TypeExpr.traverseOption f c.result,
    ← Attribute.traverseAll f c.attributes, c.span⟩

/-- Visits the payloads of the body of a declaration. -/
def TypeBody.traverse (f : π → m ρ) : TypeBody π → m (TypeBody ρ)
  | .abstract => return .abstract
  | .variant constructors => return .variant (← constructors.mapM (Constructor.traverse f))
  | .record labels => return .record (← labels.mapM (Label.traverse f))
  | .extensible => return .extensible

/-- Visits the payloads of a type declaration. -/
def TypeDecl.traverse (f : π → m ρ) (decl : TypeDecl π) : m (TypeDecl ρ) :=
  return ⟨decl.name, ← decl.params.mapM (TypeParam.traverse f), ← decl.body.traverse f,
    decl.isPrivate, ← TypeExpr.traverseOption f decl.manifest,
    ← Attribute.traverseAll f decl.attributes, decl.span⟩

/-- Visits the payloads of the body of an added constructor. -/
def AddedBody.traverse (f : π → m ρ) : AddedBody π → m (AddedBody ρ)
  | .declared args result =>
      return .declared (← args.traverse f) (← TypeExpr.traverseOption f result)
  | .rebound constructor => return .rebound constructor

/-- Visits the payloads of an added constructor. -/
def AddedConstructor.traverse (f : π → m ρ) (c : AddedConstructor π) : m (AddedConstructor ρ) :=
  return ⟨c.name, ← c.body.traverse f, ← Attribute.traverseAll f c.attributes, c.span⟩

/-- Visits the payloads of a type extension. -/
def TypeExtension.traverse (f : π → m ρ) (ext : TypeExtension π) : m (TypeExtension ρ) :=
  return ⟨ext.path, ← ext.params.mapM (TypeParam.traverse f),
    ← ext.constructors.mapM (AddedConstructor.traverse f), ext.isPrivate,
    ← Attribute.traverseAll f ext.attributes, ext.span⟩

/-- Visits the payloads of the declaration of a value. -/
def ValueDecl.traverse (f : π → m ρ) (decl : ValueDecl π) : m (ValueDecl ρ) :=
  return ⟨decl.name, ← decl.type.traverse f, decl.primitives,
    ← Attribute.traverseAll f decl.attributes, decl.span⟩

/-! ## Items and modules -/

mutual

/-- Visits the payloads of an item of a structure. -/
def StructureItem.traverse (f : π → m ρ) : StructureItem π → m (StructureItem ρ)
  | ⟨shape, span⟩ => return ⟨← StructureShape.traverse f shape, span⟩

/-- Visits the payloads of a form of item. -/
def StructureShape.traverse (f : π → m ρ) : StructureShape π → m (StructureShape ρ)
  | .eval expr attributes =>
      return .eval (← expr.traverse f) (← Attribute.traverseAll f attributes)
  | .value recursion bindings => return .value recursion (← Binding.traverseAll f bindings)
  | .primitive decl => return .primitive (← decl.traverse f)
  | .types recursion decls => return .types recursion (← decls.mapM (TypeDecl.traverse f))
  | .extend ext => return .extend (← ext.traverse f)
  | .module binding => return .module (← ModuleBinding.traverse f binding)
  | .recModules bindings => return .recModules (← ModuleBinding.traverseAll f bindings)
  | .moduleType decl => return .moduleType (← ModuleTypeDecl.traverse f decl)
  | .openModule decl => return .openModule (← decl.traverse f)
  | .include module attributes =>
      return .include (← ModuleExpr.traverse f module) (← Attribute.traverseAll f attributes)
  | .attribute attr => return .attribute (← attr.traverse f)
  | .extension ext attributes =>
      return .extension (← ext.traverse f) (← Attribute.traverseAll f attributes)

/-- Visits the payloads of the items of a structure in order. -/
def StructureItem.traverseAll (f : π → m ρ) : List (StructureItem π) → m (List (StructureItem ρ))
  | [] => return []
  | item :: rest => return (← StructureItem.traverse f item) :: (← StructureItem.traverseAll f rest)

/-- Visits the payloads of an item of a signature. -/
def SignatureItem.traverse (f : π → m ρ) : SignatureItem π → m (SignatureItem ρ)
  | ⟨shape, span⟩ => return ⟨← SignatureShape.traverse f shape, span⟩

/-- Visits the payloads of a form of item. -/
def SignatureShape.traverse (f : π → m ρ) : SignatureShape π → m (SignatureShape ρ)
  | .value decl => return .value (← decl.traverse f)
  | .types recursion decls => return .types recursion (← decls.mapM (TypeDecl.traverse f))
  | .extend ext => return .extend (← ext.traverse f)
  | .module decl => return .module (← ModuleDecl.traverse f decl)
  | .recModules decls => return .recModules (← ModuleDecl.traverseAll f decls)
  | .moduleType decl => return .moduleType (← ModuleTypeDecl.traverse f decl)
  | .openModule decl => return .openModule (← decl.traverse f)
  | .include type attributes =>
      return .include (← ModuleType.traverse f type) (← Attribute.traverseAll f attributes)
  | .attribute attr => return .attribute (← attr.traverse f)
  | .extension ext attributes =>
      return .extension (← ext.traverse f) (← Attribute.traverseAll f attributes)

/-- Visits the payloads of the items of a signature in order. -/
def SignatureItem.traverseAll (f : π → m ρ) : List (SignatureItem π) → m (List (SignatureItem ρ))
  | [] => return []
  | item :: rest => return (← SignatureItem.traverse f item) :: (← SignatureItem.traverseAll f rest)

/-- Visits the payloads of a module expression. -/
def ModuleExpr.traverse (f : π → m ρ) : ModuleExpr π → m (ModuleExpr ρ)
  | ⟨shape, span, attributes⟩ =>
      return ⟨← ModuleExprShape.traverse f shape, span, ← Attribute.traverseAll f attributes⟩

/-- Visits the payloads of a form of module expression. -/
def ModuleExprShape.traverse (f : π → m ρ) : ModuleExprShape π → m (ModuleExprShape ρ)
  | .ident name => return .ident name
  | .structure items => return .structure (← StructureItem.traverseAll f items)
  | .functor param body =>
      return .functor (← FunctorParam.traverse f param) (← ModuleExpr.traverse f body)
  | .apply functor arg =>
      return .apply (← ModuleExpr.traverse f functor) (← ModuleExpr.traverse f arg)
  | .constraint module type =>
      return .constraint (← ModuleExpr.traverse f module) (← ModuleType.traverse f type)
  | .extension ext => return .extension (← ext.traverse f)

/-- Visits the payloads of a module type. -/
def ModuleType.traverse (f : π → m ρ) : ModuleType π → m (ModuleType ρ)
  | ⟨shape, span, attributes⟩ =>
      return ⟨← ModuleTypeShape.traverse f shape, span, ← Attribute.traverseAll f attributes⟩

/-- Visits the payloads of a form of module type. -/
def ModuleTypeShape.traverse (f : π → m ρ) : ModuleTypeShape π → m (ModuleTypeShape ρ)
  | .ident name => return .ident name
  | .signature items => return .signature (← SignatureItem.traverseAll f items)
  | .functor param body =>
      return .functor (← FunctorParam.traverse f param) (← ModuleType.traverse f body)
  | .aliased module => return .aliased module
  | .extension ext => return .extension (← ext.traverse f)

/-- Visits the payloads of a module type that may be absent. -/
def ModuleType.traverseOption (f : π → m ρ) : Option (ModuleType π) → m (Option (ModuleType ρ))
  | none => return none
  | some type => return some (← ModuleType.traverse f type)

/-- Visits the payloads of the parameter of a functor. -/
def FunctorParam.traverse (f : π → m ρ) : FunctorParam π → m (FunctorParam ρ)
  | .unit => return .unit
  | .named name type => return .named name (← ModuleType.traverse f type)

/-- Visits the payloads of a module binding. -/
def ModuleBinding.traverse (f : π → m ρ) : ModuleBinding π → m (ModuleBinding ρ)
  | ⟨name, body, attributes, span⟩ =>
      return ⟨name, ← ModuleExpr.traverse f body, ← Attribute.traverseAll f attributes, span⟩

/-- Visits the payloads of module bindings in order. -/
def ModuleBinding.traverseAll (f : π → m ρ) : List (ModuleBinding π) → m (List (ModuleBinding ρ))
  | [] => return []
  | b :: rest => return (← ModuleBinding.traverse f b) :: (← ModuleBinding.traverseAll f rest)

/-- Visits the payloads of a module declaration. -/
def ModuleDecl.traverse (f : π → m ρ) : ModuleDecl π → m (ModuleDecl ρ)
  | ⟨name, type, attributes, span⟩ =>
      return ⟨name, ← ModuleType.traverse f type, ← Attribute.traverseAll f attributes, span⟩

/-- Visits the payloads of module declarations in order. -/
def ModuleDecl.traverseAll (f : π → m ρ) : List (ModuleDecl π) → m (List (ModuleDecl ρ))
  | [] => return []
  | d :: rest => return (← ModuleDecl.traverse f d) :: (← ModuleDecl.traverseAll f rest)

/-- Visits the payloads of the declaration of a module type. -/
def ModuleTypeDecl.traverse (f : π → m ρ) : ModuleTypeDecl π → m (ModuleTypeDecl ρ)
  | ⟨name, type, attributes, span⟩ =>
      return ⟨name, ← ModuleType.traverseOption f type, ← Attribute.traverseAll f attributes, span⟩

end

/-- Visits the payloads one level further down. -/
def PayloadShape.traverse (f : π → m ρ) : PayloadShape π → m (PayloadShape ρ)
  | .structure items => return .structure (← StructureItem.traverseAll f items)
  | .signature items => return .signature (← SignatureItem.traverseAll f items)
  | .type t => return .type (← t.traverse f)
  | .pattern p guard => return .pattern (← p.traverse f) (← Expr.traverseOption f guard)

end DeriveKit
