import DeriveKit.Tree.Slots
import DeriveKit.Tree.Traverse

/-!
# DeriveKit.Tree.Regular

Why a tree is an outline together with its payloads. A tree is *regular* if it comes from filling
slots in a fixed context, so that visiting the tree is visiting what fills the slots. Each kind of
tree is regular, by recursion on the tree: the end of it is `PayloadShape.regular`.
-/

namespace DeriveKit

/-- A way to visit the payloads of trees. -/
structure Traversal (T : Type → Type) where
  /-- Visits the payloads of a tree from left to right. -/
  run {m : Type → Type} [Monad m] {π ρ : Type} (f : π → m ρ) : T π → m (T ρ)

namespace Traversal

variable {T A B C D : Type → Type} {π : Type}

/-- The tree comes from filling slots, and visiting such a tree is visiting what fills them. -/
def Regular (visit : Traversal T) (t : T π) : Prop :=
  ∃ (s : Slots) (v : Filling π s) (make : {ρ : Type} → Filling ρ s → T ρ), make v = t ∧
    ∀ {m : Type → Type} [Monad m] [LawfulMonad m] {σ ρ : Type} (f : σ → m ρ) (w : Filling σ s),
      visit.run f (make w) = make <$> w.traverse f

namespace Regular

variable {visit : Traversal T} {onA : Traversal A} {onB : Traversal B} {onC : Traversal C}
  {onD : Traversal D}

/-- A tree without payloads is regular. -/
theorem const (t : {ρ : Type} → T ρ)
    (h : ∀ {m : Type → Type} [Monad m] [LawfulMonad m] {σ ρ : Type} (f : σ → m ρ),
      visit.run f t = pure t) :
    visit.Regular (t : T π) := by
  refine ⟨.none, .none, fun _ => t, rfl, fun f w => ?_⟩
  cases w
  simp [h, Filling.traverse]

/-- A tree that is one payload in a fixed context is regular. -/
theorem one (make : {ρ : Type} → ρ → T ρ) (p : π)
    (h : ∀ {m : Type → Type} [Monad m] [LawfulMonad m] {σ ρ : Type} (f : σ → m ρ) (p : σ),
      visit.run f (make p) = (do return make (← f p))) :
    visit.Regular (make p) := by
  refine ⟨.one, .one p, fun | .one p => make p, rfl, fun f w => ?_⟩
  cases w
  simp [h, Filling.traverse]

/-- A tree with one subtree is regular if the subtree is. -/
theorem map (make : {ρ : Type} → A ρ → T ρ) {a : A π} (ha : onA.Regular a)
    (h : ∀ {m : Type → Type} [Monad m] [LawfulMonad m] {σ ρ : Type} (f : σ → m ρ) (a : A σ),
      visit.run f (make a) = (do return make (← onA.run f a))) :
    visit.Regular (make a) := by
  obtain ⟨s, v, makeA, rfl, hA⟩ := ha
  exact ⟨s, v, fun w => make (makeA w), rfl, fun f w => by simp [h, hA]⟩

/-- A tree with two subtrees is regular if they are. -/
theorem map₂ (make : {ρ : Type} → A ρ → B ρ → T ρ) {a : A π} {b : B π} (ha : onA.Regular a)
    (hb : onB.Regular b)
    (h : ∀ {m : Type → Type} [Monad m] [LawfulMonad m] {σ ρ : Type} (f : σ → m ρ) (a : A σ)
      (b : B σ), visit.run f (make a b) = (do
        return make (← onA.run f a) (← onB.run f b))) :
    visit.Regular (make a b) := by
  obtain ⟨s, v, makeA, rfl, hA⟩ := ha
  obtain ⟨s', v', makeB, rfl, hB⟩ := hb
  refine ⟨.both s s', .both v v', fun | .both w w' => make (makeA w) (makeB w'), rfl,
    fun f w => ?_⟩
  cases w
  simp [h, hA, hB, Filling.traverse]

/-- A tree with three subtrees is regular if they are. -/
theorem map₃ (make : {ρ : Type} → A ρ → B ρ → C ρ → T ρ) {a : A π} {b : B π} {c : C π}
    (ha : onA.Regular a) (hb : onB.Regular b) (hc : onC.Regular c)
    (h : ∀ {m : Type → Type} [Monad m] [LawfulMonad m] {σ ρ : Type} (f : σ → m ρ) (a : A σ)
      (b : B σ) (c : C σ), visit.run f (make a b c) = (do
        return make (← onA.run f a) (← onB.run f b) (← onC.run f c))) :
    visit.Regular (make a b c) := by
  obtain ⟨s, v, makeA, rfl, hA⟩ := ha
  obtain ⟨s', v', makeB, rfl, hB⟩ := hb
  obtain ⟨s'', v'', makeC, rfl, hC⟩ := hc
  refine ⟨.both s (.both s' s''), .both v (.both v' v''),
    fun | .both w (.both w' w'') => make (makeA w) (makeB w') (makeC w''), rfl, fun f w => ?_⟩
  cases w with | both w w' =>
  cases w'
  simp [h, hA, hB, hC, Filling.traverse]

/-- A tree with four subtrees is regular if they are. -/
theorem map₄ (make : {ρ : Type} → A ρ → B ρ → C ρ → D ρ → T ρ) {a : A π} {b : B π} {c : C π}
    {d : D π} (ha : onA.Regular a) (hb : onB.Regular b) (hc : onC.Regular c) (hd : onD.Regular d)
    (h : ∀ {m : Type → Type} [Monad m] [LawfulMonad m] {σ ρ : Type} (f : σ → m ρ) (a : A σ)
      (b : B σ) (c : C σ) (d : D σ), visit.run f (make a b c d) = (do
        return make (← onA.run f a) (← onB.run f b) (← onC.run f c) (← onD.run f d))) :
    visit.Regular (make a b c d) := by
  obtain ⟨s, v, makeA, rfl, hA⟩ := ha
  obtain ⟨s', v', makeB, rfl, hB⟩ := hb
  obtain ⟨s'', v'', makeC, rfl, hC⟩ := hc
  obtain ⟨s₃, v₃, makeD, rfl, hD⟩ := hd
  refine ⟨.both s (.both s' (.both s'' s₃)), .both v (.both v' (.both v'' v₃)),
    fun | .both w (.both w' (.both w'' w₃)) => make (makeA w) (makeB w') (makeC w'') (makeD w₃),
    rfl, fun f w => ?_⟩
  cases w with | both w w' =>
  cases w' with | both w' w'' =>
  cases w''
  simp [h, hA, hB, hC, hD, Filling.traverse]

/-- A list of trees, visited in order, is regular if the trees are. -/
theorem list (h : ∀ a : A π, onA.Regular a) : (l : List (A π)) →
    Regular (T := fun π => List (A π)) ⟨fun f => List.mapM (onA.run f)⟩ l
  | [] => .const [] fun f => List.mapM_nil (f := onA.run f)
  | a :: l => .map₂ (fun a l => a :: l) (h a) (list h l) fun _ _ _ => List.mapM_cons

end Regular

end Traversal

variable {π : Type}

/-- Attributes are regular: the payload fills the one slot. -/
theorem Attribute.regular (a : Attribute π) :
    (⟨Attribute.traverse⟩ : Traversal Attribute).Regular a :=
  .one (T := Attribute) (fun p => ⟨a.name, p, a.span⟩) a.payload fun _ _ => rfl

theorem Attribute.regularAll : (l : List (Attribute π)) →
    (⟨Attribute.traverseAll⟩ : Traversal fun π => List (Attribute π)).Regular l
  | [] => .const [] fun _ => rfl
  | a :: l => .map₂ (fun a l => a :: l) a.regular (Attribute.regularAll l) fun _ _ _ => rfl

theorem Extension.regular (ext : Extension π) :
    (⟨Extension.traverse⟩ : Traversal Extension).Regular ext :=
  .one (T := Extension) (fun p => ⟨ext.name, p⟩) ext.payload fun _ _ => rfl

/-! ## Types -/

mutual

/-- Types are regular, with the rows and methods in them. -/
theorem TypeExpr.regular : (t : TypeExpr π) → (⟨TypeExpr.traverse⟩ : Traversal TypeExpr).Regular t
  | ⟨shape, span, attributes⟩ =>
      .map₂ (T := TypeExpr) (fun s as => ⟨s, span, as⟩) (TypeShape.regular shape)
        (Attribute.regularAll attributes) fun _ _ _ => rfl

theorem TypeShape.regular : (t : TypeShape π) →
    (⟨TypeShape.traverse⟩ : Traversal TypeShape).Regular t
  | .any => .const TypeShape.any fun _ => rfl
  | .var name => .const (TypeShape.var name) fun _ => rfl
  | .arrow label domain codomain =>
      .map₂ (TypeShape.arrow label) (TypeExpr.regular domain) (TypeExpr.regular codomain)
        fun _ _ _ => rfl
  | .tuple elements => .map TypeShape.tuple (TypeExpr.regularAll elements) fun _ _ => rfl
  | .constr name args => .map (TypeShape.constr name) (TypeExpr.regularAll args) fun _ _ => rfl
  | .object methods openness =>
      .map (fun ms => TypeShape.object ms openness) (TypeExpr.regularMethods methods) fun _ _ => rfl
  | .aliased body name => .map (fun t => TypeShape.aliased t name) (TypeExpr.regular body)
      fun _ _ => rfl
  | .variant rows openness lower =>
      .map (fun rs => TypeShape.variant rs openness lower) (Row.regularAll rows) fun _ _ => rfl
  | .poly vars body => .map (TypeShape.poly vars) (TypeExpr.regular body) fun _ _ => rfl
  | .package name => .const (TypeShape.package name) fun _ => rfl
  | .extension ext => .map TypeShape.extension ext.regular fun _ _ => rfl

theorem TypeExpr.regularAll : (l : List (TypeExpr π)) →
    (⟨TypeExpr.traverseAll⟩ : Traversal fun π => List (TypeExpr π)).Regular l
  | [] => .const [] fun _ => rfl
  | t :: l => .map₂ (fun t l => t :: l) (TypeExpr.regular t) (TypeExpr.regularAll l)
      fun _ _ _ => rfl

theorem TypeExpr.regularMethods : (l : List (Located String × TypeExpr π)) →
    (⟨TypeExpr.traverseMethods⟩ : Traversal fun π => List (Located String × TypeExpr π)).Regular l
  | [] => .const [] fun _ => rfl
  | (name, t) :: l => .map₂ (fun t l => (name, t) :: l) (TypeExpr.regular t)
      (TypeExpr.regularMethods l) fun _ _ _ => rfl

theorem Row.regular : (r : Row π) → (⟨Row.traverse⟩ : Traversal Row).Regular r
  | ⟨.tag label constant args, span, attributes⟩ =>
      .map₂ (T := Row) (fun ts as => ⟨.tag label constant ts, span, as⟩)
        (TypeExpr.regularAll args) (Attribute.regularAll attributes) fun _ _ _ => rfl
  | ⟨.inherit t, span, attributes⟩ =>
      .map₂ (T := Row) (fun t as => ⟨.inherit t, span, as⟩) (TypeExpr.regular t)
        (Attribute.regularAll attributes) fun _ _ _ => rfl

theorem Row.regularAll : (l : List (Row π)) →
    (⟨Row.traverseAll⟩ : Traversal fun π => List (Row π)).Regular l
  | [] => .const [] fun _ => rfl
  | r :: l => .map₂ (fun r l => r :: l) (Row.regular r) (Row.regularAll l) fun _ _ _ => rfl

end

theorem TypeExpr.regularOption : (t : Option (TypeExpr π)) →
    (⟨TypeExpr.traverseOption⟩ : Traversal fun π => Option (TypeExpr π)).Regular t
  | none => .const none fun _ => rfl
  | some t => .map (fun t => some t) t.regular fun _ _ => rfl

/-! ## Patterns and expressions -/

mutual

/-- Patterns are regular. -/
theorem Pattern.regular : (p : Pattern π) → (⟨Pattern.traverse⟩ : Traversal Pattern).Regular p
  | ⟨shape, span, attributes⟩ =>
      .map₂ (T := Pattern) (fun s as => ⟨s, span, as⟩) (PatternShape.regular shape)
        (Attribute.regularAll attributes) fun _ _ _ => rfl

theorem PatternShape.regular : (p : PatternShape π) →
    (⟨PatternShape.traverse⟩ : Traversal PatternShape).Regular p
  | .any => .const PatternShape.any fun _ => rfl
  | .var name => .const (PatternShape.var name) fun _ => rfl
  | .aliased pattern name => .map (fun p => PatternShape.aliased p name) (Pattern.regular pattern)
      fun _ _ => rfl
  | .constant value => .const (PatternShape.constant value) fun _ => rfl
  | .tuple elements => .map PatternShape.tuple (Pattern.regularAll elements) fun _ _ => rfl
  | .construct name arg => .map (PatternShape.construct name) (Pattern.regularOption arg)
      fun _ _ => rfl
  | .variant tag arg => .map (PatternShape.variant tag) (Pattern.regularOption arg) fun _ _ => rfl
  | .record fields openness =>
      .map (fun fs => PatternShape.record fs openness) (Pattern.regularFields fields) fun _ _ => rfl
  | .either left right => .map₂ PatternShape.either (Pattern.regular left) (Pattern.regular right)
      fun _ _ _ => rfl
  | .constraint pattern type => .map₂ PatternShape.constraint (Pattern.regular pattern) type.regular
      fun _ _ _ => rfl

theorem Pattern.regularAll : (l : List (Pattern π)) →
    (⟨Pattern.traverseAll⟩ : Traversal fun π => List (Pattern π)).Regular l
  | [] => .const [] fun _ => rfl
  | p :: l => .map₂ (fun p l => p :: l) (Pattern.regular p) (Pattern.regularAll l) fun _ _ _ => rfl

theorem Pattern.regularOption : (p : Option (Pattern π)) →
    (⟨Pattern.traverseOption⟩ : Traversal fun π => Option (Pattern π)).Regular p
  | none => .const none fun _ => rfl
  | some p => .map (fun p => some p) (Pattern.regular p) fun _ _ => rfl

theorem Pattern.regularFields : (l : List (Located QualName × Pattern π)) →
    (⟨Pattern.traverseFields⟩ : Traversal fun π => List (Located QualName × Pattern π)).Regular l
  | [] => .const [] fun _ => rfl
  | (label, p) :: l => .map₂ (fun p l => (label, p) :: l) (Pattern.regular p)
      (Pattern.regularFields l) fun _ _ _ => rfl

end

theorem OpenDecl.regular (decl : OpenDecl π) :
    (⟨OpenDecl.traverse⟩ : Traversal OpenDecl).Regular decl :=
  .map (T := OpenDecl) (fun as => ⟨decl.module, decl.override, as, decl.span⟩)
    (Attribute.regularAll decl.attributes) fun _ _ => rfl

mutual

/-- Expressions are regular, with the cases, bindings and openings in them. -/
theorem Expr.regular : (e : Expr π) → (⟨Expr.traverse⟩ : Traversal Expr).Regular e
  | ⟨shape, span, attributes⟩ =>
      .map₂ (T := Expr) (fun s as => ⟨s, span, as⟩) (ExprShape.regular shape)
        (Attribute.regularAll attributes) fun _ _ _ => rfl

theorem ExprShape.regular : (e : ExprShape π) →
    (⟨ExprShape.traverse⟩ : Traversal ExprShape).Regular e
  | .ident name => .const (ExprShape.ident name) fun _ => rfl
  | .constant value => .const (ExprShape.constant value) fun _ => rfl
  | .letIn recursion bindings body =>
      .map₂ (ExprShape.letIn recursion) (Binding.regularAll bindings) (Expr.regular body)
        fun _ _ _ => rfl
  | .function cases => .map ExprShape.function (Case.regularAll cases) fun _ _ => rfl
  | .lambda label default param body =>
      .map₃ (ExprShape.lambda label) (Expr.regularOption default) param.regular (Expr.regular body)
        fun _ _ _ _ => rfl
  | .apply function args => .map₂ ExprShape.apply (Expr.regular function) (Expr.regularArgs args)
      fun _ _ _ => rfl
  | .matchWith scrutinee cases =>
      .map₂ ExprShape.matchWith (Expr.regular scrutinee) (Case.regularAll cases) fun _ _ _ => rfl
  | .tuple elements => .map ExprShape.tuple (Expr.regularAll elements) fun _ _ => rfl
  | .construct name arg => .map (ExprShape.construct name) (Expr.regularOption arg) fun _ _ => rfl
  | .variant tag arg => .map (ExprShape.variant tag) (Expr.regularOption arg) fun _ _ => rfl
  | .record fields base =>
      .map₂ ExprShape.record (Expr.regularFields fields) (Expr.regularOption base) fun _ _ _ => rfl
  | .field record label => .map (fun e => ExprShape.field e label) (Expr.regular record)
      fun _ _ => rfl
  | .ifThenElse condition onTrue onFalse =>
      .map₃ ExprShape.ifThenElse (Expr.regular condition) (Expr.regular onTrue)
        (Expr.regularOption onFalse) fun _ _ _ _ => rfl
  | .sequence first second => .map₂ ExprShape.sequence (Expr.regular first) (Expr.regular second)
      fun _ _ _ => rfl
  | .constraint expr type => .map₂ ExprShape.constraint (Expr.regular expr) type.regular
      fun _ _ _ => rfl
  | .openIn decl body => .map₂ ExprShape.openIn decl.regular (Expr.regular body) fun _ _ _ => rfl
  | .extension ext => .map ExprShape.extension ext.regular fun _ _ => rfl

theorem Expr.regularAll : (l : List (Expr π)) →
    (⟨Expr.traverseAll⟩ : Traversal fun π => List (Expr π)).Regular l
  | [] => .const [] fun _ => rfl
  | e :: l => .map₂ (fun e l => e :: l) (Expr.regular e) (Expr.regularAll l) fun _ _ _ => rfl

theorem Expr.regularOption : (e : Option (Expr π)) →
    (⟨Expr.traverseOption⟩ : Traversal fun π => Option (Expr π)).Regular e
  | none => .const none fun _ => rfl
  | some e => .map (fun e => some e) (Expr.regular e) fun _ _ => rfl

theorem Expr.regularArgs : (l : List (ArgLabel × Expr π)) →
    (⟨Expr.traverseArgs⟩ : Traversal fun π => List (ArgLabel × Expr π)).Regular l
  | [] => .const [] fun _ => rfl
  | (label, e) :: l => .map₂ (fun e l => (label, e) :: l) (Expr.regular e) (Expr.regularArgs l)
      fun _ _ _ => rfl

theorem Expr.regularFields : (l : List (Located QualName × Expr π)) →
    (⟨Expr.traverseFields⟩ : Traversal fun π => List (Located QualName × Expr π)).Regular l
  | [] => .const [] fun _ => rfl
  | (label, e) :: l => .map₂ (fun e l => (label, e) :: l) (Expr.regular e) (Expr.regularFields l)
      fun _ _ _ => rfl

theorem Case.regular : (c : Case π) → (⟨Case.traverse⟩ : Traversal Case).Regular c
  | ⟨pattern, guard, body⟩ =>
      .map₃ Case.mk pattern.regular (Expr.regularOption guard) (Expr.regular body)
        fun _ _ _ _ => rfl

theorem Case.regularAll : (l : List (Case π)) →
    (⟨Case.traverseAll⟩ : Traversal fun π => List (Case π)).Regular l
  | [] => .const [] fun _ => rfl
  | c :: l => .map₂ (fun c l => c :: l) (Case.regular c) (Case.regularAll l) fun _ _ _ => rfl

theorem Binding.regular : (b : Binding π) → (⟨Binding.traverse⟩ : Traversal Binding).Regular b
  | ⟨pattern, expr, attributes, span⟩ =>
      .map₃ (T := Binding) (fun p e as => ⟨p, e, as, span⟩) pattern.regular
        (Expr.regular expr) (Attribute.regularAll attributes) fun _ _ _ _ => rfl

theorem Binding.regularAll : (l : List (Binding π)) →
    (⟨Binding.traverseAll⟩ : Traversal fun π => List (Binding π)).Regular l
  | [] => .const [] fun _ => rfl
  | b :: l => .map₂ (fun b l => b :: l) (Binding.regular b) (Binding.regularAll l) fun _ _ _ => rfl

end

/-! ## Declarations -/

theorem TypeParam.regular (param : TypeParam π) :
    (⟨TypeParam.traverse⟩ : Traversal TypeParam).Regular param :=
  .map (T := TypeParam) (fun t => ⟨t, param.variance⟩) param.type.regular fun _ _ => rfl

theorem Label.regular (label : Label π) : (⟨Label.traverse⟩ : Traversal Label).Regular label :=
  .map₂ (T := Label) (fun t as => ⟨label.name, label.isMutable, t, as, label.span⟩)
    label.type.regular (Attribute.regularAll label.attributes) fun _ _ _ => rfl

theorem ConstructorArgs.regular : (args : ConstructorArgs π) →
    (⟨ConstructorArgs.traverse⟩ : Traversal ConstructorArgs).Regular args
  | .tuple types => .map ConstructorArgs.tuple (TypeExpr.regularAll types) fun _ _ => rfl
  | .record labels => .map ConstructorArgs.record (.list Label.regular labels) fun _ _ => rfl

theorem Constructor.regular (c : Constructor π) :
    (⟨Constructor.traverse⟩ : Traversal Constructor).Regular c :=
  .map₃ (T := Constructor) (fun args t as => ⟨c.name, args, t, as, c.span⟩) c.args.regular
    (TypeExpr.regularOption c.result) (Attribute.regularAll c.attributes) fun _ _ _ _ => rfl

theorem TypeBody.regular : (body : TypeBody π) →
    (⟨TypeBody.traverse⟩ : Traversal TypeBody).Regular body
  | .abstract => .const TypeBody.abstract fun _ => rfl
  | .variant constructors => .map TypeBody.variant (.list Constructor.regular constructors)
      fun _ _ => rfl
  | .record labels => .map TypeBody.record (.list Label.regular labels) fun _ _ => rfl
  | .extensible => .const TypeBody.extensible fun _ => rfl

/-- Declarations of types are regular. -/
theorem TypeDecl.regular (decl : TypeDecl π) :
    (⟨TypeDecl.traverse⟩ : Traversal TypeDecl).Regular decl :=
  .map₄ (T := TypeDecl) (fun ps b t as => ⟨decl.name, ps, b, decl.isPrivate, t, as, decl.span⟩)
    (.list TypeParam.regular decl.params) decl.body.regular
    (TypeExpr.regularOption decl.manifest) (Attribute.regularAll decl.attributes)
    fun _ _ _ _ _ => rfl

theorem AddedBody.regular : (body : AddedBody π) →
    (⟨AddedBody.traverse⟩ : Traversal AddedBody).Regular body
  | .declared args result => .map₂ AddedBody.declared args.regular (TypeExpr.regularOption result)
      fun _ _ _ => rfl
  | .rebound constructor => .const (AddedBody.rebound constructor) fun _ => rfl

theorem AddedConstructor.regular (c : AddedConstructor π) :
    (⟨AddedConstructor.traverse⟩ : Traversal AddedConstructor).Regular c :=
  .map₂ (T := AddedConstructor) (fun b as => ⟨c.name, b, as, c.span⟩) c.body.regular
    (Attribute.regularAll c.attributes) fun _ _ _ => rfl

theorem TypeExtension.regular (ext : TypeExtension π) :
    (⟨TypeExtension.traverse⟩ : Traversal TypeExtension).Regular ext :=
  .map₃ (T := TypeExtension) (fun ps cs as => ⟨ext.path, ps, cs, ext.isPrivate, as, ext.span⟩)
    (.list TypeParam.regular ext.params) (.list AddedConstructor.regular ext.constructors)
    (Attribute.regularAll ext.attributes) fun _ _ _ _ => rfl

theorem ValueDecl.regular (decl : ValueDecl π) :
    (⟨ValueDecl.traverse⟩ : Traversal ValueDecl).Regular decl :=
  .map₂ (T := ValueDecl) (fun t as => ⟨decl.name, t, decl.primitives, as, decl.span⟩)
    decl.type.regular (Attribute.regularAll decl.attributes) fun _ _ _ => rfl

/-! ## Items and modules -/

mutual

/-- Items of structures are regular, with the modules in them. -/
theorem StructureItem.regular : (item : StructureItem π) →
    (⟨StructureItem.traverse⟩ : Traversal StructureItem).Regular item
  | ⟨shape, span⟩ => .map (T := StructureItem) (fun s => ⟨s, span⟩) (StructureShape.regular shape)
      fun _ _ => rfl

theorem StructureShape.regular : (item : StructureShape π) →
    (⟨StructureShape.traverse⟩ : Traversal StructureShape).Regular item
  | .eval expr attributes =>
      .map₂ StructureShape.eval expr.regular (Attribute.regularAll attributes) fun _ _ _ => rfl
  | .value recursion bindings => .map (StructureShape.value recursion) (Binding.regularAll bindings)
      fun _ _ => rfl
  | .primitive decl => .map StructureShape.primitive decl.regular fun _ _ => rfl
  | .types recursion decls => .map (StructureShape.types recursion) (.list TypeDecl.regular decls)
      fun _ _ => rfl
  | .extend ext => .map StructureShape.extend ext.regular fun _ _ => rfl
  | .module binding => .map StructureShape.module (ModuleBinding.regular binding) fun _ _ => rfl
  | .recModules bindings => .map StructureShape.recModules (ModuleBinding.regularAll bindings)
      fun _ _ => rfl
  | .moduleType decl => .map StructureShape.moduleType (ModuleTypeDecl.regular decl) fun _ _ => rfl
  | .openModule decl => .map StructureShape.openModule decl.regular fun _ _ => rfl
  | .include module attributes =>
      .map₂ StructureShape.include (ModuleExpr.regular module) (Attribute.regularAll attributes)
        fun _ _ _ => rfl
  | .attribute attr => .map StructureShape.attribute attr.regular fun _ _ => rfl
  | .extension ext attributes =>
      .map₂ StructureShape.extension ext.regular (Attribute.regularAll attributes) fun _ _ _ => rfl

theorem StructureItem.regularAll : (l : List (StructureItem π)) →
    (⟨StructureItem.traverseAll⟩ : Traversal fun π => List (StructureItem π)).Regular l
  | [] => .const [] fun _ => rfl
  | item :: l => .map₂ (fun item l => item :: l) (StructureItem.regular item)
      (StructureItem.regularAll l) fun _ _ _ => rfl

/-- Items of signatures are regular, with the module types in them. -/
theorem SignatureItem.regular : (item : SignatureItem π) →
    (⟨SignatureItem.traverse⟩ : Traversal SignatureItem).Regular item
  | ⟨shape, span⟩ => .map (T := SignatureItem) (fun s => ⟨s, span⟩) (SignatureShape.regular shape)
      fun _ _ => rfl

theorem SignatureShape.regular : (item : SignatureShape π) →
    (⟨SignatureShape.traverse⟩ : Traversal SignatureShape).Regular item
  | .value decl => .map SignatureShape.value decl.regular fun _ _ => rfl
  | .types recursion decls => .map (SignatureShape.types recursion) (.list TypeDecl.regular decls)
      fun _ _ => rfl
  | .extend ext => .map SignatureShape.extend ext.regular fun _ _ => rfl
  | .module decl => .map SignatureShape.module (ModuleDecl.regular decl) fun _ _ => rfl
  | .recModules decls => .map SignatureShape.recModules (ModuleDecl.regularAll decls) fun _ _ => rfl
  | .moduleType decl => .map SignatureShape.moduleType (ModuleTypeDecl.regular decl) fun _ _ => rfl
  | .openModule decl => .map SignatureShape.openModule decl.regular fun _ _ => rfl
  | .include type attributes =>
      .map₂ SignatureShape.include (ModuleType.regular type) (Attribute.regularAll attributes)
        fun _ _ _ => rfl
  | .attribute attr => .map SignatureShape.attribute attr.regular fun _ _ => rfl
  | .extension ext attributes =>
      .map₂ SignatureShape.extension ext.regular (Attribute.regularAll attributes) fun _ _ _ => rfl

theorem SignatureItem.regularAll : (l : List (SignatureItem π)) →
    (⟨SignatureItem.traverseAll⟩ : Traversal fun π => List (SignatureItem π)).Regular l
  | [] => .const [] fun _ => rfl
  | item :: l => .map₂ (fun item l => item :: l) (SignatureItem.regular item)
      (SignatureItem.regularAll l) fun _ _ _ => rfl

theorem ModuleExpr.regular : (e : ModuleExpr π) →
    (⟨ModuleExpr.traverse⟩ : Traversal ModuleExpr).Regular e
  | ⟨shape, span, attributes⟩ =>
      .map₂ (T := ModuleExpr) (fun s as => ⟨s, span, as⟩) (ModuleExprShape.regular shape)
        (Attribute.regularAll attributes) fun _ _ _ => rfl

theorem ModuleExprShape.regular : (e : ModuleExprShape π) →
    (⟨ModuleExprShape.traverse⟩ : Traversal ModuleExprShape).Regular e
  | .ident name => .const (ModuleExprShape.ident name) fun _ => rfl
  | .structure items => .map ModuleExprShape.structure (StructureItem.regularAll items)
      fun _ _ => rfl
  | .functor param body =>
      .map₂ ModuleExprShape.functor (FunctorParam.regular param) (ModuleExpr.regular body)
        fun _ _ _ => rfl
  | .apply functor arg =>
      .map₂ ModuleExprShape.apply (ModuleExpr.regular functor) (ModuleExpr.regular arg)
        fun _ _ _ => rfl
  | .constraint module type =>
      .map₂ ModuleExprShape.constraint (ModuleExpr.regular module) (ModuleType.regular type)
        fun _ _ _ => rfl
  | .extension ext => .map ModuleExprShape.extension ext.regular fun _ _ => rfl

theorem ModuleType.regular : (t : ModuleType π) →
    (⟨ModuleType.traverse⟩ : Traversal ModuleType).Regular t
  | ⟨shape, span, attributes⟩ =>
      .map₂ (T := ModuleType) (fun s as => ⟨s, span, as⟩) (ModuleTypeShape.regular shape)
        (Attribute.regularAll attributes) fun _ _ _ => rfl

theorem ModuleTypeShape.regular : (t : ModuleTypeShape π) →
    (⟨ModuleTypeShape.traverse⟩ : Traversal ModuleTypeShape).Regular t
  | .ident name => .const (ModuleTypeShape.ident name) fun _ => rfl
  | .signature items => .map ModuleTypeShape.signature (SignatureItem.regularAll items)
      fun _ _ => rfl
  | .functor param body =>
      .map₂ ModuleTypeShape.functor (FunctorParam.regular param) (ModuleType.regular body)
        fun _ _ _ => rfl
  | .aliased module => .const (ModuleTypeShape.aliased module) fun _ => rfl
  | .extension ext => .map ModuleTypeShape.extension ext.regular fun _ _ => rfl

theorem ModuleType.regularOption : (t : Option (ModuleType π)) →
    (⟨ModuleType.traverseOption⟩ : Traversal fun π => Option (ModuleType π)).Regular t
  | none => .const none fun _ => rfl
  | some t => .map (fun t => some t) (ModuleType.regular t) fun _ _ => rfl

theorem FunctorParam.regular : (param : FunctorParam π) →
    (⟨FunctorParam.traverse⟩ : Traversal FunctorParam).Regular param
  | .unit => .const FunctorParam.unit fun _ => rfl
  | .named name type => .map (FunctorParam.named name) (ModuleType.regular type) fun _ _ => rfl

theorem ModuleBinding.regular : (b : ModuleBinding π) →
    (⟨ModuleBinding.traverse⟩ : Traversal ModuleBinding).Regular b
  | ⟨name, body, attributes, span⟩ =>
      .map₂ (T := ModuleBinding) (fun e as => ⟨name, e, as, span⟩) (ModuleExpr.regular body)
        (Attribute.regularAll attributes) fun _ _ _ => rfl

theorem ModuleBinding.regularAll : (l : List (ModuleBinding π)) →
    (⟨ModuleBinding.traverseAll⟩ : Traversal fun π => List (ModuleBinding π)).Regular l
  | [] => .const [] fun _ => rfl
  | b :: l => .map₂ (fun b l => b :: l) (ModuleBinding.regular b) (ModuleBinding.regularAll l)
      fun _ _ _ => rfl

theorem ModuleDecl.regular : (d : ModuleDecl π) →
    (⟨ModuleDecl.traverse⟩ : Traversal ModuleDecl).Regular d
  | ⟨name, type, attributes, span⟩ =>
      .map₂ (T := ModuleDecl) (fun t as => ⟨name, t, as, span⟩) (ModuleType.regular type)
        (Attribute.regularAll attributes) fun _ _ _ => rfl

theorem ModuleDecl.regularAll : (l : List (ModuleDecl π)) →
    (⟨ModuleDecl.traverseAll⟩ : Traversal fun π => List (ModuleDecl π)).Regular l
  | [] => .const [] fun _ => rfl
  | d :: l => .map₂ (fun d l => d :: l) (ModuleDecl.regular d) (ModuleDecl.regularAll l)
      fun _ _ _ => rfl

theorem ModuleTypeDecl.regular : (d : ModuleTypeDecl π) →
    (⟨ModuleTypeDecl.traverse⟩ : Traversal ModuleTypeDecl).Regular d
  | ⟨name, type, attributes, span⟩ =>
      .map₂ (T := ModuleTypeDecl) (fun t as => ⟨name, t, as, span⟩) (ModuleType.regularOption type)
        (Attribute.regularAll attributes) fun _ _ _ => rfl

end

/-- The first level of a payload is regular, whatever kind of syntax it is. -/
theorem PayloadShape.regular : (s : PayloadShape π) →
    (⟨PayloadShape.traverse⟩ : Traversal PayloadShape).Regular s
  | .structure items => .map PayloadShape.structure (StructureItem.regularAll items) fun _ _ => rfl
  | .signature items => .map PayloadShape.signature (SignatureItem.regularAll items) fun _ _ => rfl
  | .type t => .map PayloadShape.type t.regular fun _ _ => rfl
  | .pattern p guard => .map₂ PayloadShape.pattern p.regular (Expr.regularOption guard)
      fun _ _ _ => rfl

end DeriveKit
