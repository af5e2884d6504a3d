import DeriveKit.Tree.Payload

/-!
# DeriveKit.Tree.Erase

Trees without their places, to say that two trees are equal but for where they were written. An
`Erasure` also says what becomes of the payloads, and what is kept of the attributes of patterns and
expressions: all of them (`unplaced`), or none (`stripped`).
-/

namespace DeriveKit

/-- What is kept of a tree besides its form: something of each payload, and some of the attributes
of patterns and expressions. -/
structure Erasure (π ρ : Type) where
  payload : π → ρ
  nodes : List (Attribute ρ) → List (Attribute ρ)

/-- The value written nowhere. -/
def Located.erase {α : Type} (l : Located α) : Located α := .generated l.value

variable {π ρ : Type}

/-- An attribute without places. -/
def Attribute.erase (E : Erasure π ρ) (a : Attribute π) : Attribute ρ :=
  ⟨a.name.erase, E.payload a.payload, .generated⟩

/-- Attributes without places. -/
def Attribute.eraseAll (E : Erasure π ρ) (attributes : List (Attribute π)) : List (Attribute ρ) :=
  attributes.map (Attribute.erase E)

/-- The attributes kept of a pattern or an expression, without places. -/
def Attribute.eraseNode (E : Erasure π ρ) (attributes : List (Attribute π)) : List (Attribute ρ) :=
  E.nodes (Attribute.eraseAll E attributes)

/-- An extension node without places. -/
def Extension.erase (E : Erasure π ρ) (x : Extension π) : Extension ρ :=
  ⟨x.name.erase, E.payload x.payload⟩

/-! ## Types -/

mutual

/-- A type expression without places. -/
def TypeExpr.erase (E : Erasure π ρ) : TypeExpr π → TypeExpr ρ
  | ⟨shape, _, attributes⟩ => ⟨TypeShape.erase E shape, .generated, Attribute.eraseAll E attributes⟩

/-- A form of type without places. -/
def TypeShape.erase (E : Erasure π ρ) : TypeShape π → TypeShape ρ
  | .any => .any
  | .var name => .var name
  | .arrow label domain codomain =>
      .arrow label (TypeExpr.erase E domain) (TypeExpr.erase E codomain)
  | .tuple elements => .tuple (TypeExpr.eraseAll E elements)
  | .constr name args => .constr name.erase (TypeExpr.eraseAll E args)
  | .object methods openness => .object (TypeExpr.eraseMethods E methods) openness
  | .aliased body name => .aliased (TypeExpr.erase E body) name.erase
  | .variant rows openness lower => .variant (Row.eraseAll E rows) openness lower
  | .poly vars body => .poly (vars.map Located.erase) (TypeExpr.erase E body)
  | .package name => .package name.erase
  | .extension ext => .extension (ext.erase E)

/-- Type expressions without places. -/
def TypeExpr.eraseAll (E : Erasure π ρ) : List (TypeExpr π) → List (TypeExpr ρ)
  | [] => []
  | t :: rest => TypeExpr.erase E t :: TypeExpr.eraseAll E rest

/-- The methods of an object type without places. -/
def TypeExpr.eraseMethods (E : Erasure π ρ) :
    List (Located String × TypeExpr π) → List (Located String × TypeExpr ρ)
  | [] => []
  | (name, t) :: rest => (name.erase, TypeExpr.erase E t) :: TypeExpr.eraseMethods E rest

/-- A row without places. -/
def Row.erase (E : Erasure π ρ) : Row π → Row ρ
  | ⟨.tag label constant args, _, attributes⟩ =>
      ⟨.tag label.erase constant (TypeExpr.eraseAll E args), .generated,
        Attribute.eraseAll E attributes⟩
  | ⟨.inherit t, _, attributes⟩ =>
      ⟨.inherit (TypeExpr.erase E t), .generated, Attribute.eraseAll E attributes⟩

/-- Rows without places. -/
def Row.eraseAll (E : Erasure π ρ) : List (Row π) → List (Row ρ)
  | [] => []
  | r :: rest => Row.erase E r :: Row.eraseAll E rest

end

theorem TypeExpr.eraseAll_eq_map (E : Erasure π ρ) (ts : List (TypeExpr π)) :
    TypeExpr.eraseAll E ts = ts.map (TypeExpr.erase E) := by
  induction ts with
  | nil => rfl
  | cons t ts ih => rw [TypeExpr.eraseAll, ih, List.map_cons]

theorem TypeExpr.eraseMethods_eq_map (E : Erasure π ρ) (ms : List (Located String × TypeExpr π)) :
    TypeExpr.eraseMethods E ms = ms.map fun m => (m.1.erase, TypeExpr.erase E m.2) := by
  induction ms with
  | nil => rfl
  | cons m ms ih => rw [TypeExpr.eraseMethods, ih, List.map_cons]

theorem Row.eraseAll_eq_map (E : Erasure π ρ) (rs : List (Row π)) :
    Row.eraseAll E rs = rs.map (Row.erase E) := by
  induction rs with
  | nil => rfl
  | cons r rs ih => rw [Row.eraseAll, ih, List.map_cons]

/-! ## Patterns and expressions -/

mutual

/-- A pattern without places. -/
def Pattern.erase (E : Erasure π ρ) : Pattern π → Pattern ρ
  | ⟨shape, _, attributes⟩ =>
      ⟨PatternShape.erase E shape, .generated, Attribute.eraseNode E attributes⟩

/-- A form of pattern without places. -/
def PatternShape.erase (E : Erasure π ρ) : PatternShape π → PatternShape ρ
  | .any => .any
  | .var name => .var name.erase
  | .aliased pattern name => .aliased (Pattern.erase E pattern) name.erase
  | .constant value => .constant value
  | .tuple elements => .tuple (Pattern.eraseAll E elements)
  | .construct name arg => .construct name.erase (Pattern.eraseOption E arg)
  | .variant tag arg => .variant tag (Pattern.eraseOption E arg)
  | .record fields openness => .record (Pattern.eraseFields E fields) openness
  | .either left right => .either (Pattern.erase E left) (Pattern.erase E right)
  | .constraint pattern type => .constraint (Pattern.erase E pattern) (type.erase E)

/-- Patterns without places. -/
def Pattern.eraseAll (E : Erasure π ρ) : List (Pattern π) → List (Pattern ρ)
  | [] => []
  | p :: rest => Pattern.erase E p :: Pattern.eraseAll E rest

/-- A pattern that may be absent, without places. -/
def Pattern.eraseOption (E : Erasure π ρ) : Option (Pattern π) → Option (Pattern ρ)
  | none => none
  | some p => some (Pattern.erase E p)

/-- The fields of a record pattern without places. -/
def Pattern.eraseFields (E : Erasure π ρ) :
    List (Located QualName × Pattern π) → List (Located QualName × Pattern ρ)
  | [] => []
  | (label, p) :: rest => (label.erase, Pattern.erase E p) :: Pattern.eraseFields E rest

end

theorem Pattern.eraseAll_eq_map (E : Erasure π ρ) (ps : List (Pattern π)) :
    Pattern.eraseAll E ps = ps.map (Pattern.erase E) := by
  induction ps with
  | nil => rfl
  | cons p ps ih => rw [Pattern.eraseAll, ih, List.map_cons]

theorem Pattern.eraseFields_eq_map (E : Erasure π ρ)
    (fields : List (Located QualName × Pattern π)) :
    Pattern.eraseFields E fields = fields.map fun f => (f.1.erase, Pattern.erase E f.2) := by
  induction fields with
  | nil => rfl
  | cons f fields ih => rw [Pattern.eraseFields, ih, List.map_cons]

/-- An opening without places. -/
def OpenDecl.erase (E : Erasure π ρ) (decl : OpenDecl π) : OpenDecl ρ :=
  ⟨decl.module.erase, decl.override, Attribute.eraseAll E decl.attributes, .generated⟩

mutual

/-- An expression without places. -/
def Expr.erase (E : Erasure π ρ) : Expr π → Expr ρ
  | ⟨shape, _, attributes⟩ =>
      ⟨ExprShape.erase E shape, .generated, Attribute.eraseNode E attributes⟩

/-- A form of expression without places. -/
def ExprShape.erase (E : Erasure π ρ) : ExprShape π → ExprShape ρ
  | .ident name => .ident name.erase
  | .constant value => .constant value
  | .letIn recursion bindings body =>
      .letIn recursion (Binding.eraseAll E bindings) (Expr.erase E body)
  | .function cases => .function (Case.eraseAll E cases)
  | .lambda label default param body =>
      .lambda label (Expr.eraseOption E default) (param.erase E) (Expr.erase E body)
  | .apply function args => .apply (Expr.erase E function) (Expr.eraseArgs E args)
  | .matchWith scrutinee cases => .matchWith (Expr.erase E scrutinee) (Case.eraseAll E cases)
  | .tuple elements => .tuple (Expr.eraseAll E elements)
  | .construct name arg => .construct name.erase (Expr.eraseOption E arg)
  | .variant tag arg => .variant tag (Expr.eraseOption E arg)
  | .record fields base => .record (Expr.eraseFields E fields) (Expr.eraseOption E base)
  | .field record label => .field (Expr.erase E record) label.erase
  | .ifThenElse condition onTrue onFalse =>
      .ifThenElse (Expr.erase E condition) (Expr.erase E onTrue) (Expr.eraseOption E onFalse)
  | .sequence first second => .sequence (Expr.erase E first) (Expr.erase E second)
  | .constraint expr type => .constraint (Expr.erase E expr) (type.erase E)
  | .openIn decl body => .openIn (decl.erase E) (Expr.erase E body)
  | .extension ext => .extension (ext.erase E)

/-- Expressions without places. -/
def Expr.eraseAll (E : Erasure π ρ) : List (Expr π) → List (Expr ρ)
  | [] => []
  | e :: rest => Expr.erase E e :: Expr.eraseAll E rest

/-- An expression that may be absent, without places. -/
def Expr.eraseOption (E : Erasure π ρ) : Option (Expr π) → Option (Expr ρ)
  | none => none
  | some e => some (Expr.erase E e)

/-- Labelled arguments without places. -/
def Expr.eraseArgs (E : Erasure π ρ) : List (ArgLabel × Expr π) → List (ArgLabel × Expr ρ)
  | [] => []
  | (label, e) :: rest => (label, Expr.erase E e) :: Expr.eraseArgs E rest

/-- The fields of a record without places. -/
def Expr.eraseFields (E : Erasure π ρ) :
    List (Located QualName × Expr π) → List (Located QualName × Expr ρ)
  | [] => []
  | (label, e) :: rest => (label.erase, Expr.erase E e) :: Expr.eraseFields E rest

/-- A case without places. -/
def Case.erase (E : Erasure π ρ) : Case π → Case ρ
  | ⟨pattern, guard, body⟩ => ⟨pattern.erase E, Expr.eraseOption E guard, Expr.erase E body⟩

/-- Cases without places. -/
def Case.eraseAll (E : Erasure π ρ) : List (Case π) → List (Case ρ)
  | [] => []
  | c :: rest => Case.erase E c :: Case.eraseAll E rest

/-- A binding without places. -/
def Binding.erase (E : Erasure π ρ) : Binding π → Binding ρ
  | ⟨pattern, expr, attributes, _⟩ =>
      ⟨pattern.erase E, Expr.erase E expr, Attribute.eraseAll E attributes, .generated⟩

/-- Bindings without places. -/
def Binding.eraseAll (E : Erasure π ρ) : List (Binding π) → List (Binding ρ)
  | [] => []
  | b :: rest => Binding.erase E b :: Binding.eraseAll E rest

end

theorem Expr.eraseAll_eq_map (E : Erasure π ρ) (es : List (Expr π)) :
    Expr.eraseAll E es = es.map (Expr.erase E) := by
  induction es with
  | nil => rfl
  | cons e es ih => rw [Expr.eraseAll, ih, List.map_cons]

theorem Expr.eraseArgs_eq_map (E : Erasure π ρ) (args : List (ArgLabel × Expr π)) :
    Expr.eraseArgs E args = args.map fun a => (a.1, Expr.erase E a.2) := by
  induction args with
  | nil => rfl
  | cons a args ih => rw [Expr.eraseArgs, ih, List.map_cons]

theorem Expr.eraseFields_eq_map (E : Erasure π ρ) (fields : List (Located QualName × Expr π)) :
    Expr.eraseFields E fields = fields.map fun f => (f.1.erase, Expr.erase E f.2) := by
  induction fields with
  | nil => rfl
  | cons f fields ih => rw [Expr.eraseFields, ih, List.map_cons]

theorem Case.eraseAll_eq_map (E : Erasure π ρ) (cases : List (Case π)) :
    Case.eraseAll E cases = cases.map (Case.erase E) := by
  induction cases with
  | nil => rfl
  | cons c cases ih => rw [Case.eraseAll, ih, List.map_cons]

theorem Binding.eraseAll_eq_map (E : Erasure π ρ) (bindings : List (Binding π)) :
    Binding.eraseAll E bindings = bindings.map (Binding.erase E) := by
  induction bindings with
  | nil => rfl
  | cons b bindings ih => rw [Binding.eraseAll, ih, List.map_cons]

/-! ## Declarations -/

/-- A parameter without places. -/
def TypeParam.erase (E : Erasure π ρ) (param : TypeParam π) : TypeParam ρ :=
  ⟨param.type.erase E, param.variance⟩

/-- A label without places. -/
def Label.erase (E : Erasure π ρ) (label : Label π) : Label ρ :=
  ⟨label.name.erase, label.isMutable, label.type.erase E, Attribute.eraseAll E label.attributes,
    .generated⟩

/-- What a constructor takes, without places. -/
def ConstructorArgs.erase (E : Erasure π ρ) : ConstructorArgs π → ConstructorArgs ρ
  | .tuple types => .tuple (types.map (TypeExpr.erase E))
  | .record labels => .record (labels.map (Label.erase E))

/-- A constructor without places. -/
def Constructor.erase (E : Erasure π ρ) (c : Constructor π) : Constructor ρ :=
  ⟨c.name.erase, c.args.erase E, c.result.map (TypeExpr.erase E),
    Attribute.eraseAll E c.attributes, .generated⟩

/-- The body of a declaration without places. -/
def TypeBody.erase (E : Erasure π ρ) : TypeBody π → TypeBody ρ
  | .abstract => .abstract
  | .variant constructors => .variant (constructors.map (Constructor.erase E))
  | .record labels => .record (labels.map (Label.erase E))
  | .extensible => .extensible

/-- A type declaration without places. -/
def TypeDecl.erase (E : Erasure π ρ) (decl : TypeDecl π) : TypeDecl ρ :=
  ⟨decl.name.erase, decl.params.map (TypeParam.erase E), decl.body.erase E, decl.isPrivate,
    decl.manifest.map (TypeExpr.erase E), Attribute.eraseAll E decl.attributes, .generated⟩

/-- The body of an added constructor without places. -/
def AddedBody.erase (E : Erasure π ρ) : AddedBody π → AddedBody ρ
  | .declared args result => .declared (args.erase E) (result.map (TypeExpr.erase E))
  | .rebound constructor => .rebound constructor.erase

/-- An added constructor without places. -/
def AddedConstructor.erase (E : Erasure π ρ) (c : AddedConstructor π) : AddedConstructor ρ :=
  ⟨c.name.erase, c.body.erase E, Attribute.eraseAll E c.attributes, .generated⟩

/-- A type extension without places. -/
def TypeExtension.erase (E : Erasure π ρ) (ext : TypeExtension π) : TypeExtension ρ :=
  ⟨ext.path.erase, ext.params.map (TypeParam.erase E),
    ext.constructors.map (AddedConstructor.erase E), ext.isPrivate,
    Attribute.eraseAll E ext.attributes, .generated⟩

/-- The declaration of a value without places. -/
def ValueDecl.erase (E : Erasure π ρ) (decl : ValueDecl π) : ValueDecl ρ :=
  ⟨decl.name.erase, decl.type.erase E, decl.primitives, Attribute.eraseAll E decl.attributes,
    .generated⟩

/-! ## Items and modules -/

mutual

/-- An item of a structure without places. -/
def StructureItem.erase (E : Erasure π ρ) : StructureItem π → StructureItem ρ
  | ⟨shape, _⟩ => ⟨StructureShape.erase E shape, .generated⟩

/-- A form of item without places. -/
def StructureShape.erase (E : Erasure π ρ) : StructureShape π → StructureShape ρ
  | .eval expr attributes => .eval (expr.erase E) (Attribute.eraseAll E attributes)
  | .value recursion bindings => .value recursion (Binding.eraseAll E bindings)
  | .primitive decl => .primitive (decl.erase E)
  | .types recursion decls => .types recursion (decls.map (TypeDecl.erase E))
  | .extend ext => .extend (ext.erase E)
  | .module binding => .module (ModuleBinding.erase E binding)
  | .recModules bindings => .recModules (ModuleBinding.eraseAll E bindings)
  | .moduleType decl => .moduleType (ModuleTypeDecl.erase E decl)
  | .openModule decl => .openModule (decl.erase E)
  | .include module attributes =>
      .include (ModuleExpr.erase E module) (Attribute.eraseAll E attributes)
  | .attribute attr => .attribute (attr.erase E)
  | .extension ext attributes => .extension (ext.erase E) (Attribute.eraseAll E attributes)

/-- Items of a structure without places. -/
def StructureItem.eraseAll (E : Erasure π ρ) : List (StructureItem π) → List (StructureItem ρ)
  | [] => []
  | item :: rest => StructureItem.erase E item :: StructureItem.eraseAll E rest

/-- An item of a signature without places. -/
def SignatureItem.erase (E : Erasure π ρ) : SignatureItem π → SignatureItem ρ
  | ⟨shape, _⟩ => ⟨SignatureShape.erase E shape, .generated⟩

/-- A form of item without places. -/
def SignatureShape.erase (E : Erasure π ρ) : SignatureShape π → SignatureShape ρ
  | .value decl => .value (decl.erase E)
  | .types recursion decls => .types recursion (decls.map (TypeDecl.erase E))
  | .extend ext => .extend (ext.erase E)
  | .module decl => .module (ModuleDecl.erase E decl)
  | .recModules decls => .recModules (ModuleDecl.eraseAll E decls)
  | .moduleType decl => .moduleType (ModuleTypeDecl.erase E decl)
  | .openModule decl => .openModule (decl.erase E)
  | .include type attributes => .include (ModuleType.erase E type) (Attribute.eraseAll E attributes)
  | .attribute attr => .attribute (attr.erase E)
  | .extension ext attributes => .extension (ext.erase E) (Attribute.eraseAll E attributes)

/-- Items of a signature without places. -/
def SignatureItem.eraseAll (E : Erasure π ρ) : List (SignatureItem π) → List (SignatureItem ρ)
  | [] => []
  | item :: rest => SignatureItem.erase E item :: SignatureItem.eraseAll E rest

/-- A module expression without places. -/
def ModuleExpr.erase (E : Erasure π ρ) : ModuleExpr π → ModuleExpr ρ
  | ⟨shape, _, attributes⟩ =>
      ⟨ModuleExprShape.erase E shape, .generated, Attribute.eraseAll E attributes⟩

/-- A form of module expression without places. -/
def ModuleExprShape.erase (E : Erasure π ρ) : ModuleExprShape π → ModuleExprShape ρ
  | .ident name => .ident name.erase
  | .structure items => .structure (StructureItem.eraseAll E items)
  | .functor param body => .functor (FunctorParam.erase E param) (ModuleExpr.erase E body)
  | .apply functor arg => .apply (ModuleExpr.erase E functor) (ModuleExpr.erase E arg)
  | .constraint module type => .constraint (ModuleExpr.erase E module) (ModuleType.erase E type)
  | .extension ext => .extension (ext.erase E)

/-- A module type without places. -/
def ModuleType.erase (E : Erasure π ρ) : ModuleType π → ModuleType ρ
  | ⟨shape, _, attributes⟩ =>
      ⟨ModuleTypeShape.erase E shape, .generated, Attribute.eraseAll E attributes⟩

/-- A form of module type without places. -/
def ModuleTypeShape.erase (E : Erasure π ρ) : ModuleTypeShape π → ModuleTypeShape ρ
  | .ident name => .ident name.erase
  | .signature items => .signature (SignatureItem.eraseAll E items)
  | .functor param body => .functor (FunctorParam.erase E param) (ModuleType.erase E body)
  | .aliased module => .aliased module.erase
  | .extension ext => .extension (ext.erase E)

/-- A module type that may be absent, without places. -/
def ModuleType.eraseOption (E : Erasure π ρ) : Option (ModuleType π) → Option (ModuleType ρ)
  | none => none
  | some type => some (ModuleType.erase E type)

/-- The parameter of a functor without places. -/
def FunctorParam.erase (E : Erasure π ρ) : FunctorParam π → FunctorParam ρ
  | .unit => .unit
  | .named name type => .named name.erase (ModuleType.erase E type)

/-- A module binding without places. -/
def ModuleBinding.erase (E : Erasure π ρ) : ModuleBinding π → ModuleBinding ρ
  | ⟨name, body, attributes, _⟩ =>
      ⟨name.erase, ModuleExpr.erase E body, Attribute.eraseAll E attributes, .generated⟩

/-- Module bindings without places. -/
def ModuleBinding.eraseAll (E : Erasure π ρ) : List (ModuleBinding π) → List (ModuleBinding ρ)
  | [] => []
  | b :: rest => ModuleBinding.erase E b :: ModuleBinding.eraseAll E rest

/-- A module declaration without places. -/
def ModuleDecl.erase (E : Erasure π ρ) : ModuleDecl π → ModuleDecl ρ
  | ⟨name, type, attributes, _⟩ =>
      ⟨name.erase, ModuleType.erase E type, Attribute.eraseAll E attributes, .generated⟩

/-- Module declarations without places. -/
def ModuleDecl.eraseAll (E : Erasure π ρ) : List (ModuleDecl π) → List (ModuleDecl ρ)
  | [] => []
  | d :: rest => ModuleDecl.erase E d :: ModuleDecl.eraseAll E rest

/-- The declaration of a module type without places. -/
def ModuleTypeDecl.erase (E : Erasure π ρ) : ModuleTypeDecl π → ModuleTypeDecl ρ
  | ⟨name, type, attributes, _⟩ =>
      ⟨name.erase, ModuleType.eraseOption E type, Attribute.eraseAll E attributes, .generated⟩

end

/-! ## Payloads -/

/-- One level of payload without places. -/
def PayloadShape.erase (E : Erasure π ρ) : PayloadShape π → PayloadShape ρ
  | .structure items => .structure (StructureItem.eraseAll E items)
  | .signature items => .signature (SignatureItem.eraseAll E items)
  | .type t => .type (t.erase E)
  | .pattern p guard => .pattern (p.erase E) (Expr.eraseOption E guard)

/-- A payload without places, on all levels. -/
def Payload.erase (nodes : List (Attribute Payload) → List (Attribute Payload)) :
    Payload → Payload :=
  fold fun s => .ofShape (s.erase ⟨id, nodes⟩)

/-- Erases all places and nothing else. -/
def Erasure.places : Erasure Payload Payload := ⟨Payload.erase id, id⟩

/-- Erases all places and all attributes of patterns and expressions. -/
def Erasure.nodeAttributes : Erasure Payload Payload := ⟨Payload.erase fun _ => [], fun _ => []⟩

/-- The type expression as if it was written nowhere. -/
def TypeExpr.unplaced (t : TypeExpr Payload) : TypeExpr Payload := t.erase .places

/-- The pattern as if it was written nowhere. -/
def Pattern.unplaced (p : Pattern Payload) : Pattern Payload := p.erase .places

/-- The expression as if it was written nowhere. -/
def Expr.unplaced (e : Expr Payload) : Expr Payload := e.erase .places

/-- The module expression as if it was written nowhere. -/
def ModuleExpr.unplaced (m : ModuleExpr Payload) : ModuleExpr Payload := m.erase .places

/-- The pattern without places and without attributes of patterns and expressions. -/
def Pattern.stripped (p : Pattern Payload) : Pattern Payload := p.erase .nodeAttributes

/-- The expression without places and without attributes of patterns and expressions. -/
def Expr.stripped (e : Expr Payload) : Expr Payload := e.erase .nodeAttributes

end DeriveKit
