import DeriveKit.Proofs.Edit

/-!
# DeriveKit.Proofs.Expansion

What an expansion is, said without its recursion: it looks for an answer at every point of the unit
in the order of a walk, and if none is missing it puts the answers where they belong
(`SourceUnit.expand_eq`). So whether it fails, and how, is a matter of the list of points, and the
result is an edit of the unit, which cannot fail.
-/

namespace DeriveKit

/-- What stands in the place of a placeholder. Where there is no answer it does not matter. -/
def Registry.put (r : Registry) (p : Placeholder Payload) : Expr Payload :=
  (p.answer r).valueOr (.unit .generated)

/-- Puts the answers at all points where they belong. -/
def Registry.edit (r : Registry) : Edit Payload where
  drops := Span.nowhere
  structureAfter path subject := (subject.structureAnswer r path).valueOr []
  signatureAfter path subject := (subject.signatureAnswer r path).valueOr []
  expr := Expr.fill r.put

/-! ## checks along a walk -/

namespace Encounter

/-- Whether there are answers at all points that are met. -/
def checkAll (r : Registry) (path : ModulePath) (es : List (Encounter Payload)) : Outcome Unit :=
  forM (es.flatMap (·.points path)) (·.check r)

variable (r : Registry) (path : ModulePath)

@[simp] theorem checkAll_nil : checkAll r path [] = pure () := rfl

/-- Points are checked in order, so the first part of a walk is checked before the second. -/
theorem checkAll_append (es fs : List (Encounter Payload)) :
    checkAll r path (es ++ fs) = (do checkAll r path es; checkAll r path fs) := by
  rw [checkAll, List.flatMap_append, List.forM_append]
  rfl

/-- What is met first is checked first. -/
theorem checkAll_cons (e : Encounter Payload) (es : List (Encounter Payload)) :
    checkAll r path (e :: es) = (do forM (e.points path) (·.check r); checkAll r path es) := by
  rw [checkAll, List.flatMap_cons, List.forM_append]
  rfl

/-- Inside a module, points are checked at the path that leads into it. -/
theorem checkAll_inside (name : Option String) (es : List (Encounter Payload)) :
    checkAll r path (es.map (·.inside name)) = checkAll r (path.enter name) es := by
  rw [checkAll, checkAll, List.flatMap_map]
  simp only [points_inside]

/-- The check of an annotated item is that of its answer. -/
theorem forM_points_item (i : Item Payload) :
    forM (points path (.item [] i)) (·.check r) =
      (i.site? path).elim (.ok ()) fun s => (s.answer r).check := by
  rw [points, ModulePath.within_nil]
  cases i.site? path with
  | none => rfl
  | some s =>
      simp only [Option.map_some, Option.toList_some, List.forM_cons, List.forM_nil, Point.check,
        Option.elim_some]
      cases s.answer r <;> rfl

/-- An item has one point if it has a subject: the answer to its attributes. -/
theorem forM_points_structure (item : StructureItem Payload) :
    forM (points path (.item [] (.structure item))) (·.check r) =
      item.subject?.elim (.ok ()) fun s => (s.structureAnswer r path).check := by
  rw [forM_points_item, Item.site?]
  cases item.subject? with
  | none => rfl
  | some s => simp [Site.answer]

/-- So it is with an item of a signature. -/
theorem forM_points_signature (item : SignatureItem Payload) :
    forM (points path (.item [] (.signature item))) (·.check r) =
      item.subject?.elim (.ok ()) fun s => (s.signatureAnswer r path).check := by
  rw [forM_points_item, Item.site?]
  cases item.subject? with
  | none => rfl
  | some s => simp [Site.answer]

end Encounter

/-! ## expressions -/

/-- Filling the placeholders of an expression. -/
theorem Registry.fillAll_eq (r : Registry) (e : Expr Payload) :
    r.fillAll e = do
      forM e.placeholders fun p => (p.answer r).check
      return e.fill r.put := by
  rw [fillAll, r.fill?_eq, Expr.visit_answering _ _ (.unit .generated)]
  rfl

/-- The points met at expressions are the placeholders in them. -/
theorem Encounter.checkAll_exprs (r : Registry) (path : ModulePath) (es : List (Expr Payload)) :
    checkAll r path (es.map .expr) =
      forM (es.flatMap (·.placeholders)) fun p => (p.answer r).check := by
  induction es with
  | nil => rfl
  | cons e rest ih =>
      have points_expr : forM (points path (.expr e)) (Point.check r) =
          forM e.placeholders fun p => (Placeholder.answer r p).check := by
        rw [points]
        induction e.placeholders with
        | nil => rfl
        | cons p ps ihp =>
            rw [List.map_cons, List.forM_cons, List.forM_cons, ihp]
            rfl
      rw [List.map_cons, checkAll_cons, ih, points_expr, List.flatMap_cons, List.forM_append]

/-- Filling the placeholders of bindings. -/
theorem Registry.fillBindings_eq (r : Registry) (path : ModulePath)
    (bindings : List (Binding Payload)) :
    r.fillBindings bindings = do
      Encounter.checkAll r path (bindings.map fun b => .expr b.expr)
      return bindings.map fun b => { b with expr := b.expr.fill r.put } := by
  have exprs_eq : (bindings.map fun b => Encounter.expr b.expr) =
      (bindings.map (·.expr)).map .expr := by
    rw [List.map_map]
    rfl
  have visit_eq : Binding.visitAll (.answering Expr.placeholder? (·.answer r)) bindings = do
      forM (bindings.map (·.expr)) fun e => forM e.placeholders fun p => (p.answer r).check
      return bindings.map (·.mapExpr (·.fill r.put)) :=
    Binding.visitAll_ofExpr fun e _ => Expr.visit_answering _ _ (.unit .generated) e
  rw [fillBindings, r.fill?_eq, visit_eq, exprs_eq, Encounter.checkAll_exprs, forM_flatMap]
  rfl

/-! ## units -/

section Expand

variable (r : Registry)

/- Expanding looks into an item before it asks for what follows the item, and a walk meets the item
first. This makes no difference, because annotated declarations have nothing inside that a walk
could meet. -/

/-- What is expanded inside an item, and then asked for after it, is what a walk meets. -/
theorem StructureItem.expand_generated_eq (path : ModulePath) (item : StructureItem Payload)
    (h : item.expand r path = do
      Encounter.checkAll r path (item.shape.walk Span.nowhere)
      return item.edit r.edit path) :
    (do
      let expanded ← item.expand r path
      return expanded :: (← expanded.generated r path)) = do
      Encounter.checkAll r path (item.walk Span.nowhere)
      return item.edit r.edit path :: item.subject?.elim [] (r.edit.structureAfter path) := by
  obtain ⟨shape, span⟩ := item
  simp only [h, bind_assoc, pure_bind, generated_eq, subject?_edit, walk, Span.nowhere_eq_false,
    Bool.false_eq_true, if_false, Encounter.checkAll_cons, Encounter.forM_points_structure]
  cases hs : subject? ⟨shape, span⟩ with
  | none => rfl
  | some s =>
      rw [walk_of_subject? hs]
      simp only [Option.elim_some, Encounter.checkAll_nil, pure_bind, Registry.edit]
      cases s.structureAnswer r path <;> rfl

/-- An expanded item of a signature is followed by what is generated for it, as in structures. -/
theorem SignatureItem.expand_generated_eq (path : ModulePath) (item : SignatureItem Payload)
    (h : item.expand r path = do
      Encounter.checkAll r path (item.shape.walk Span.nowhere)
      return item.edit r.edit path) :
    (do
      let expanded ← item.expand r path
      return expanded :: (← expanded.generated r path)) = do
      Encounter.checkAll r path (item.walk Span.nowhere)
      return item.edit r.edit path :: item.subject?.elim [] (r.edit.signatureAfter path) := by
  obtain ⟨shape, span⟩ := item
  simp only [h, bind_assoc, pure_bind, generated_eq, subject?_edit, walk, Span.nowhere_eq_false,
    Bool.false_eq_true, if_false, Encounter.checkAll_cons, Encounter.forM_points_signature]
  cases hs : subject? ⟨shape, span⟩ with
  | none => rfl
  | some s =>
      rw [walk_of_subject? hs]
      simp only [Option.elim_some, Encounter.checkAll_nil, pure_bind, Registry.edit]
      cases s.signatureAnswer r path <;> rfl

mutual

/-- **Expanding a structure is checking all its points and then editing it.** By recursion on the
tree: each of the lemmas below does so for one kind of node, and the order of the checks is that of
the walk because both visit parts from left to right. -/
theorem StructureItem.expandAll_eq (path : ModulePath) : (items : List (StructureItem Payload)) →
    StructureItem.expandAll r path items = do
      Encounter.checkAll r path (StructureItem.walkAll Span.nowhere items)
      return StructureItem.editAll r.edit path items
  | [] => rfl
  | item :: rest => by
      have hitem :=
        StructureItem.expand_generated_eq r path item (StructureItem.expand_eq path item)
      have hunfold : StructureItem.expandAll r path (item :: rest) = do
          let front ← (do
            let expanded ← item.expand r path
            return expanded :: (← expanded.generated r path))
          return front ++ (← StructureItem.expandAll r path rest) := by
        simp only [StructureItem.expandAll, bind_assoc, pure_bind, List.cons_append]
      rw [hunfold, hitem, StructureItem.expandAll_eq path rest, StructureItem.walkAll,
        Encounter.checkAll_append, StructureItem.editAll, if_neg (by simp [Registry.edit])]
      simp only [bind_assoc, pure_bind]

/-- Inside an item, the subject of the item itself apart. -/
theorem StructureItem.expand_eq (path : ModulePath) : (item : StructureItem Payload) →
    item.expand r path = do
      Encounter.checkAll r path (item.shape.walk Span.nowhere)
      return item.edit r.edit path
  | ⟨shape, span⟩ => by
      simp only [StructureItem.expand, StructureItem.edit, StructureShape.expand_eq path shape,
        bind_assoc, pure_bind]

/-- Inside a form of item. Expressions have their placeholders for points. -/
theorem StructureShape.expand_eq (path : ModulePath) : (shape : StructureShape Payload) →
    shape.expand r path = do
      Encounter.checkAll r path (shape.walk Span.nowhere)
      return shape.edit r.edit path
  | .primitive _ | .types _ _ | .extend _ | .openModule _ | .attribute _ | .extension _ _ => rfl
  | .eval expr attributes => by
      have hcheck := Encounter.checkAll_exprs r path [expr]
      rw [List.map_singleton, List.flatMap_singleton] at hcheck
      rw [StructureShape.expand, StructureShape.walk, StructureShape.edit, r.fillAll_eq, hcheck]
      simp only [bind_assoc, pure_bind, Registry.edit]
  | .value recursion bindings => by
      rw [StructureShape.expand, StructureShape.walk, StructureShape.edit,
        r.fillBindings_eq path]
      simp only [bind_assoc, pure_bind, Registry.edit]
  | .module binding => by
      simp only [StructureShape.expand, StructureShape.walk, StructureShape.edit,
        ModuleBinding.expand_eq path binding, bind_assoc, pure_bind]
  | .recModules bindings => by
      simp only [StructureShape.expand, StructureShape.walk, StructureShape.edit,
        ModuleBinding.expandAll_eq path bindings, bind_assoc, pure_bind]
  | .moduleType decl => by
      simp only [StructureShape.expand, StructureShape.walk, StructureShape.edit,
        ModuleTypeDecl.expand_eq path decl, bind_assoc, pure_bind]
  | .include module _ => by
      simp only [StructureShape.expand, StructureShape.walk, StructureShape.edit,
        ModuleExpr.expand_eq path module, bind_assoc, pure_bind]

/-- Expanding a signature is checking all its points and then editing it. -/
theorem SignatureItem.expandAll_eq (path : ModulePath) : (items : List (SignatureItem Payload)) →
    SignatureItem.expandAll r path items = do
      Encounter.checkAll r path (SignatureItem.walkAll Span.nowhere items)
      return SignatureItem.editAll r.edit path items
  | [] => rfl
  | item :: rest => by
      have hitem :=
        SignatureItem.expand_generated_eq r path item (SignatureItem.expand_eq path item)
      have hunfold : SignatureItem.expandAll r path (item :: rest) = do
          let front ← (do
            let expanded ← item.expand r path
            return expanded :: (← expanded.generated r path))
          return front ++ (← SignatureItem.expandAll r path rest) := by
        simp only [SignatureItem.expandAll, bind_assoc, pure_bind, List.cons_append]
      rw [hunfold, hitem, SignatureItem.expandAll_eq path rest, SignatureItem.walkAll,
        Encounter.checkAll_append, SignatureItem.editAll, if_neg (by simp [Registry.edit])]
      simp only [bind_assoc, pure_bind]

/-- Inside an item of a signature. -/
theorem SignatureItem.expand_eq (path : ModulePath) : (item : SignatureItem Payload) →
    item.expand r path = do
      Encounter.checkAll r path (item.shape.walk Span.nowhere)
      return item.edit r.edit path
  | ⟨shape, span⟩ => by
      simp only [SignatureItem.expand, SignatureItem.edit, SignatureShape.expand_eq path shape,
        bind_assoc, pure_bind]

theorem SignatureShape.expand_eq (path : ModulePath) : (shape : SignatureShape Payload) →
    shape.expand r path = do
      Encounter.checkAll r path (shape.walk Span.nowhere)
      return shape.edit r.edit path
  | .value _ | .types _ _ | .extend _ | .openModule _ | .attribute _ | .extension _ _ => rfl
  | .module decl => by
      simp only [SignatureShape.expand, SignatureShape.walk, SignatureShape.edit,
        ModuleDecl.expand_eq path decl, bind_assoc, pure_bind]
  | .recModules decls => by
      simp only [SignatureShape.expand, SignatureShape.walk, SignatureShape.edit,
        ModuleDecl.expandAll_eq path decls, bind_assoc, pure_bind]
  | .moduleType decl => by
      simp only [SignatureShape.expand, SignatureShape.walk, SignatureShape.edit,
        ModuleTypeDecl.expand_eq path decl, bind_assoc, pure_bind]
  | .include type _ => by
      simp only [SignatureShape.expand, SignatureShape.walk, SignatureShape.edit,
        ModuleType.expand_eq path type, bind_assoc, pure_bind]

/-- In a module expression. -/
theorem ModuleExpr.expand_eq (path : ModulePath) : (e : ModuleExpr Payload) →
    e.expand r path = do
      Encounter.checkAll r path (e.walk Span.nowhere)
      return e.edit r.edit path
  | ⟨shape, _, _⟩ => by
      simp only [ModuleExpr.expand, ModuleExpr.walk, ModuleExpr.edit,
        ModuleExprShape.expand_eq path shape, bind_assoc, pure_bind]

/-- The functor of an application is expanded before its argument. -/
theorem ModuleExprShape.expand_eq (path : ModulePath) : (shape : ModuleExprShape Payload) →
    shape.expand r path = do
      Encounter.checkAll r path (shape.walk Span.nowhere)
      return shape.edit r.edit path
  | .ident _ | .extension _ => rfl
  | .structure items => by
      simp only [ModuleExprShape.expand, ModuleExprShape.walk, ModuleExprShape.edit,
        StructureItem.expandAll_eq path items, bind_assoc, pure_bind]
  | .functor param body => by
      simp only [ModuleExprShape.expand, ModuleExprShape.walk, ModuleExprShape.edit,
        FunctorParam.expand_eq path param, ModuleExpr.expand_eq path body,
        Encounter.checkAll_append, bind_assoc, pure_bind]
  | .apply callee arg => by
      simp only [ModuleExprShape.expand, ModuleExprShape.walk, ModuleExprShape.edit,
        ModuleExpr.expand_eq path callee, ModuleExpr.expand_eq path arg,
        Encounter.checkAll_append, bind_assoc, pure_bind]
  | .constraint module type => by
      simp only [ModuleExprShape.expand, ModuleExprShape.walk, ModuleExprShape.edit,
        ModuleExpr.expand_eq path module, ModuleType.expand_eq path type,
        Encounter.checkAll_append, bind_assoc, pure_bind]

/-- In a module type. -/
theorem ModuleType.expand_eq (path : ModulePath) : (t : ModuleType Payload) →
    t.expand r path = do
      Encounter.checkAll r path (t.walk Span.nowhere)
      return t.edit r.edit path
  | ⟨shape, _, _⟩ => by
      simp only [ModuleType.expand, ModuleType.walk, ModuleType.edit,
        ModuleTypeShape.expand_eq path shape, bind_assoc, pure_bind]

theorem ModuleTypeShape.expand_eq (path : ModulePath) : (shape : ModuleTypeShape Payload) →
    shape.expand r path = do
      Encounter.checkAll r path (shape.walk Span.nowhere)
      return shape.edit r.edit path
  | .ident _ | .aliased _ | .extension _ => rfl
  | .signature items => by
      simp only [ModuleTypeShape.expand, ModuleTypeShape.walk, ModuleTypeShape.edit,
        SignatureItem.expandAll_eq path items, bind_assoc, pure_bind]
  | .functor param body => by
      simp only [ModuleTypeShape.expand, ModuleTypeShape.walk, ModuleTypeShape.edit,
        FunctorParam.expand_eq path param, ModuleType.expand_eq path body,
        Encounter.checkAll_append, bind_assoc, pure_bind]

/-- In the parameter of a functor, before the body. -/
theorem FunctorParam.expand_eq (path : ModulePath) : (p : FunctorParam Payload) →
    p.expand r path = do
      Encounter.checkAll r path (p.walk Span.nowhere)
      return p.edit r.edit path
  | .unit => rfl
  | .named _ type => by
      simp only [FunctorParam.expand, FunctorParam.walk, FunctorParam.edit,
        ModuleType.expand_eq path type, bind_assoc, pure_bind]

/-- In a module with a name, at the path that leads into it. -/
theorem ModuleBinding.expand_eq (path : ModulePath) : (b : ModuleBinding Payload) →
    b.expand r path = do
      Encounter.checkAll r path (b.walk Span.nowhere)
      return b.edit r.edit path
  | ⟨name, body, _, _⟩ => by
      simp only [ModuleBinding.expand, ModuleBinding.walk, ModuleBinding.edit,
        ModuleExpr.expand_eq (path.enter name.value) body, Encounter.checkAll_inside, bind_assoc,
        pure_bind]

/-- In the modules of a recursive group. -/
theorem ModuleBinding.expandAll_eq (path : ModulePath) : (bs : List (ModuleBinding Payload)) →
    ModuleBinding.expandAll r path bs = do
      Encounter.checkAll r path (ModuleBinding.walkAll Span.nowhere bs)
      return ModuleBinding.editAll r.edit path bs
  | [] => rfl
  | b :: rest => by
      simp only [ModuleBinding.expandAll, ModuleBinding.walkAll, ModuleBinding.editAll,
        ModuleBinding.expand_eq path b, ModuleBinding.expandAll_eq path rest,
        Encounter.checkAll_append, bind_assoc, pure_bind]

/-- In a declared module. -/
theorem ModuleDecl.expand_eq (path : ModulePath) : (d : ModuleDecl Payload) →
    d.expand r path = do
      Encounter.checkAll r path (d.walk Span.nowhere)
      return d.edit r.edit path
  | ⟨name, type, _, _⟩ => by
      simp only [ModuleDecl.expand, ModuleDecl.walk, ModuleDecl.edit,
        ModuleType.expand_eq (path.enter name.value) type, Encounter.checkAll_inside, bind_assoc,
        pure_bind]

theorem ModuleDecl.expandAll_eq (path : ModulePath) : (ds : List (ModuleDecl Payload)) →
    ModuleDecl.expandAll r path ds = do
      Encounter.checkAll r path (ModuleDecl.walkAll Span.nowhere ds)
      return ModuleDecl.editAll r.edit path ds
  | [] => rfl
  | d :: rest => by
      simp only [ModuleDecl.expandAll, ModuleDecl.walkAll, ModuleDecl.editAll,
        ModuleDecl.expand_eq path d, ModuleDecl.expandAll_eq path rest,
        Encounter.checkAll_append, bind_assoc, pure_bind]

/-- In a declared module type; an abstract one has no points. -/
theorem ModuleTypeDecl.expand_eq (path : ModulePath) : (d : ModuleTypeDecl Payload) →
    d.expand r path = do
      Encounter.checkAll r path (d.walk Span.nowhere)
      return d.edit r.edit path
  | ⟨_, none, _, _⟩ => rfl
  | ⟨name, some type, _, _⟩ => by
      simp only [ModuleTypeDecl.expand, ModuleTypeDecl.walk, ModuleTypeDecl.edit,
        ← ModulePath.enter_some, ModuleType.expand_eq (path.enter (some name.value)) type,
        Encounter.checkAll_inside, bind_assoc, pure_bind]

end

/-- **An expansion is its points and an edit**: it asks for the answer at every point in the order
of a walk, and if none is missing it puts them where they belong. -/
theorem SourceUnit.expand_eq (path : ModulePath) : (u : SourceUnit Payload) →
    u.expand r path = do
      forM (u.points path) (·.check r)
      return u.edit r.edit path
  | .structure items => by
      simp only [expand, StructureItem.expandAll_eq, bind_assoc, pure_bind]
      rfl
  | .signature items => by
      simp only [expand, SignatureItem.expandAll_eq, bind_assoc, pure_bind]
      rfl

end Expand

/-- An expansion succeeds exactly if there are answers at all points; the result is then an edit. -/
theorem SourceUnit.expand_eq_ok_iff {r : Registry} {path : ModulePath}
    {u out : SourceUnit Payload} :
    u.expand r path = .ok out ↔
      (∀ p ∈ u.points path, p.check r = .ok ()) ∧ out = u.edit r.edit path := by
  rw [expand_eq, Outcome.bind_pure_eq_ok_iff, Outcome.forM_eq_ok_iff]

end DeriveKit
