import DeriveKit.Proofs.Points

/-!
# DeriveKit.Proofs.Edit

Changes of a unit that cannot fail (`Edit`), made at every list that a walk comes to: items are left
out by their place, items are put after annotated ones, and expressions are changed. Everything else
stays as it is. Leaving out what stands at a place (`Edit.deleting`), and filling placeholders
(`Edit.mapping`), are changes of this kind. An edit that only changes expressions, and none of those
that a walk meets, changes nothing (`SourceUnit.fill_eq_self`).
-/

namespace DeriveKit

variable {π : Type}

/-- What to change. -/
structure Edit (π : Type) where
  /-- Whether items at a place are left out, with all that is inside. -/
  drops : Span → Bool
  /-- What follows a subject in a structure. -/
  structureAfter : ModulePath → Subject π → List (StructureItem π)
  /-- What follows a subject in a signature. -/
  signatureAfter : ModulePath → Subject π → List (SignatureItem π)
  /-- What takes the place of an expression. -/
  expr : Expr π → Expr π

mutual

/-- Edits items of a structure. -/
def StructureItem.editAll (t : Edit π) (path : ModulePath) :
    List (StructureItem π) → List (StructureItem π)
  | [] => []
  | item :: rest =>
      if t.drops item.span then StructureItem.editAll t path rest
      else
        StructureItem.edit t path item :: item.subject?.elim [] (t.structureAfter path) ++
          StructureItem.editAll t path rest

/-- Edits what is inside an item of a structure. -/
def StructureItem.edit (t : Edit π) (path : ModulePath) : StructureItem π → StructureItem π
  | ⟨shape, span⟩ => ⟨StructureShape.edit t path shape, span⟩

/-- Edits what is inside a form of item. -/
def StructureShape.edit (t : Edit π) (path : ModulePath) : StructureShape π → StructureShape π
  | .eval expr attributes => .eval (t.expr expr) attributes
  | .value recursion bindings =>
      .value recursion (bindings.map fun binding => { binding with expr := t.expr binding.expr })
  | .primitive decl => .primitive decl
  | .types recursion decls => .types recursion decls
  | .extend ext => .extend ext
  | .module binding => .module (ModuleBinding.edit t path binding)
  | .recModules bindings => .recModules (ModuleBinding.editAll t path bindings)
  | .moduleType decl => .moduleType (ModuleTypeDecl.edit t path decl)
  | .openModule decl => .openModule decl
  | .include module attributes => .include (ModuleExpr.edit t path module) attributes
  | .attribute attr => .attribute attr
  | .extension ext attributes => .extension ext attributes

/-- Edits items of a signature. -/
def SignatureItem.editAll (t : Edit π) (path : ModulePath) :
    List (SignatureItem π) → List (SignatureItem π)
  | [] => []
  | item :: rest =>
      if t.drops item.span then SignatureItem.editAll t path rest
      else
        SignatureItem.edit t path item :: item.subject?.elim [] (t.signatureAfter path) ++
          SignatureItem.editAll t path rest

/-- Edits what is inside an item of a signature. -/
def SignatureItem.edit (t : Edit π) (path : ModulePath) : SignatureItem π → SignatureItem π
  | ⟨shape, span⟩ => ⟨SignatureShape.edit t path shape, span⟩

/-- Edits what is inside a form of item. -/
def SignatureShape.edit (t : Edit π) (path : ModulePath) : SignatureShape π → SignatureShape π
  | .value decl => .value decl
  | .types recursion decls => .types recursion decls
  | .extend ext => .extend ext
  | .module decl => .module (ModuleDecl.edit t path decl)
  | .recModules decls => .recModules (ModuleDecl.editAll t path decls)
  | .moduleType decl => .moduleType (ModuleTypeDecl.edit t path decl)
  | .openModule decl => .openModule decl
  | .include type attributes => .include (ModuleType.edit t path type) attributes
  | .attribute attr => .attribute attr
  | .extension ext attributes => .extension ext attributes

/-- Edits the items in a module expression. -/
def ModuleExpr.edit (t : Edit π) (path : ModulePath) : ModuleExpr π → ModuleExpr π
  | ⟨shape, span, attributes⟩ => ⟨ModuleExprShape.edit t path shape, span, attributes⟩

/-- Edits the items in a form of module expression. -/
def ModuleExprShape.edit (t : Edit π) (path : ModulePath) : ModuleExprShape π → ModuleExprShape π
  | .ident name => .ident name
  | .structure items => .structure (StructureItem.editAll t path items)
  | .functor param body => .functor (FunctorParam.edit t path param) (ModuleExpr.edit t path body)
  | .apply functor arg => .apply (ModuleExpr.edit t path functor) (ModuleExpr.edit t path arg)
  | .constraint module type =>
      .constraint (ModuleExpr.edit t path module) (ModuleType.edit t path type)
  | .extension ext => .extension ext

/-- Edits the items in a module type. -/
def ModuleType.edit (t : Edit π) (path : ModulePath) : ModuleType π → ModuleType π
  | ⟨shape, span, attributes⟩ => ⟨ModuleTypeShape.edit t path shape, span, attributes⟩

/-- Edits the items in a form of module type. -/
def ModuleTypeShape.edit (t : Edit π) (path : ModulePath) : ModuleTypeShape π → ModuleTypeShape π
  | .ident name => .ident name
  | .signature items => .signature (SignatureItem.editAll t path items)
  | .functor param body => .functor (FunctorParam.edit t path param) (ModuleType.edit t path body)
  | .aliased module => .aliased module
  | .extension ext => .extension ext

/-- Edits the items in the type of a parameter. -/
def FunctorParam.edit (t : Edit π) (path : ModulePath) : FunctorParam π → FunctorParam π
  | .unit => .unit
  | .named name type => .named name (ModuleType.edit t path type)

/-- Edits the items in a module binding. -/
def ModuleBinding.edit (t : Edit π) (path : ModulePath) : ModuleBinding π → ModuleBinding π
  | ⟨name, body, attributes, span⟩ =>
      ⟨name, ModuleExpr.edit t (path.enter name.value) body, attributes, span⟩

/-- Edits the items in module bindings. -/
def ModuleBinding.editAll (t : Edit π) (path : ModulePath) :
    List (ModuleBinding π) → List (ModuleBinding π)
  | [] => []
  | b :: rest => ModuleBinding.edit t path b :: ModuleBinding.editAll t path rest

/-- Edits the items in a module declaration. -/
def ModuleDecl.edit (t : Edit π) (path : ModulePath) : ModuleDecl π → ModuleDecl π
  | ⟨name, type, attributes, span⟩ =>
      ⟨name, ModuleType.edit t (path.enter name.value) type, attributes, span⟩

/-- Edits the items in module declarations. -/
def ModuleDecl.editAll (t : Edit π) (path : ModulePath) : List (ModuleDecl π) → List (ModuleDecl π)
  | [] => []
  | d :: rest => ModuleDecl.edit t path d :: ModuleDecl.editAll t path rest

/-- Edits the items in the declaration of a module type. -/
def ModuleTypeDecl.edit (t : Edit π) (path : ModulePath) : ModuleTypeDecl π → ModuleTypeDecl π
  | ⟨name, none, attributes, span⟩ => ⟨name, none, attributes, span⟩
  | ⟨name, some type, attributes, span⟩ =>
      ⟨name, some (ModuleType.edit t (path.enter (some name.value)) type), attributes, span⟩

end

/-- Annotated declarations stay as they are. -/
@[simp] theorem StructureItem.subject?_edit (t : Edit π) (path : ModulePath)
    (item : StructureItem π) : (item.edit t path).subject? = item.subject? := by
  obtain ⟨shape, span⟩ := item
  cases shape <;> rfl

/-- So do those of signatures. -/
@[simp] theorem SignatureItem.subject?_edit (t : Edit π) (path : ModulePath)
    (item : SignatureItem π) : (item.edit t path).subject? = item.subject? := by
  obtain ⟨shape, span⟩ := item
  cases shape <;> rfl

namespace Edit

/-- Leaves out what stands at `m`. -/
def deleting (m : Span) : Edit π where
  drops := (· == m)
  structureAfter _ _ := []
  signatureAfter _ _ := []
  expr e := e

/-- Changes expressions and nothing else. -/
def mapping (f : Expr π → Expr π) : Edit π where
  drops := Span.nowhere
  structureAfter _ _ := []
  signatureAfter _ _ := []
  expr := f

/-- `deleting` leaves out what stands at one place. -/
@[simp] theorem deleting_drops (m : Span) : (deleting m : Edit π).drops = (· == m) := rfl

/-- `mapping` leaves out nothing. -/
@[simp] theorem mapping_drops (f : Expr π → Expr π) : (mapping f).drops = Span.nowhere := rfl

/-- `mapping` changes expressions by the function that it is given. -/
@[simp] theorem mapping_expr (f : Expr π → Expr π) : (mapping f).expr = f := rfl

/-- Deleting puts nothing after an item, whether it has a subject or not. -/
@[simp] theorem deleting_structureAfter (m : Span) (path : ModulePath)
    (subject? : Option (Subject π)) :
    subject?.elim [] ((deleting m).structureAfter path) = [] := by
  cases subject? <;> rfl

/-- So it is in signatures. -/
@[simp] theorem deleting_signatureAfter (m : Span) (path : ModulePath)
    (subject? : Option (Subject π)) :
    subject?.elim [] ((deleting m).signatureAfter path) = [] := by
  cases subject? <;> rfl

/-- Changing expressions puts nothing after an item, whether it has a subject or not. -/
@[simp] theorem mapping_structureAfter (f : Expr π → Expr π) (path : ModulePath)
    (subject? : Option (Subject π)) :
    subject?.elim [] ((mapping f).structureAfter path) = [] := by
  cases subject? <;> rfl

/-- In signatures, too, nothing is put after an item. -/
@[simp] theorem mapping_signatureAfter (f : Expr π → Expr π) (path : ModulePath)
    (subject? : Option (Subject π)) :
    subject?.elim [] ((mapping f).signatureAfter path) = [] := by
  cases subject? <;> rfl

end Edit

namespace SourceUnit

/-- Edits a unit whose items live at `path`. -/
def edit (t : Edit π) (path : ModulePath) : SourceUnit π → SourceUnit π
  | .structure items => .structure (StructureItem.editAll t path items)
  | .signature items => .signature (SignatureItem.editAll t path items)

/-- The unit without the items that stand at `m`, in all lists that a walk comes to. -/
def delete (m : Span) (u : SourceUnit π) : SourceUnit π := u.edit (.deleting m) .root

/-- The unit with `put p` in the place of each placeholder `p`. -/
def fill (put : Placeholder π → Expr π) (u : SourceUnit π) : SourceUnit π :=
  u.edit (.mapping (Expr.fill put)) .root

end SourceUnit

/-! ## changing nothing -/

/-- Whether a change of expressions leaves those that are met as they are. -/
def Encounter.Fixed (f : Expr π → Expr π) (es : List (Encounter π)) : Prop :=
  ∀ e ∈ es.filterMap (·.expr?), f e = e

namespace Encounter

variable {f : Expr π → Expr π} {es fs : List (Encounter π)}

/-- A change leaves the expressions of a walk alone if it does so in its parts
(`Encounter.Fixed`). -/
theorem fixed_append : Fixed f (es ++ fs) ↔ Fixed f es ∧ Fixed f fs := by
  simp only [Fixed, List.filterMap_append, List.forall_mem_append]

/-- The module that expressions stand in plays no part. -/
theorem fixed_inside {name : Option String} : Fixed f (es.map (·.inside name)) ↔ Fixed f es := by
  simp only [Fixed, List.filterMap_map, Function.comp_def, expr?_inside]

end Encounter

section Mapping

variable {f : Expr π → Expr π}

mutual

/-- A change of expressions that leaves all expressions of a structure alone leaves the structure
alone. By recursion on the tree, along with the walk. -/
theorem StructureItem.editAll_mapping_eq_self (path : ModulePath) :
    (items : List (StructureItem π)) →
    Encounter.Fixed f (StructureItem.walkAll Span.nowhere items) →
    StructureItem.editAll (.mapping f) path items = items
  | [], _ => rfl
  | item :: rest, h => by
      obtain ⟨hitem, hrest⟩ := Encounter.fixed_append.1 h
      rw [StructureItem.editAll, if_neg (by simp), Edit.mapping_structureAfter,
        StructureItem.edit_mapping_eq_self path item hitem,
        StructureItem.editAll_mapping_eq_self path rest hrest]
      rfl

/-- Inside an item. -/
theorem StructureItem.edit_mapping_eq_self (path : ModulePath) : (item : StructureItem π) →
    Encounter.Fixed f (item.walk Span.nowhere) → item.edit (.mapping f) path = item
  | ⟨shape, _⟩, h => by
      rw [StructureItem.edit, StructureShape.edit_mapping_eq_self path shape h]

/-- Inside a form of item, where the expressions are. -/
theorem StructureShape.edit_mapping_eq_self (path : ModulePath) : (shape : StructureShape π) →
    Encounter.Fixed f (shape.walk Span.nowhere) → shape.edit (.mapping f) path = shape
  | .primitive _, _ | .types _ _, _ | .extend _, _ | .openModule _, _ | .attribute _, _
  | .extension _ _, _ => rfl
  | .eval expr attributes, h => by
      have hexpr : f expr = expr := h expr (List.mem_singleton.2 rfl)
      rw [StructureShape.edit, Edit.mapping_expr, hexpr]
  | .value recursion bindings, h => by
      have hbinding : ∀ b ∈ bindings, { b with expr := f b.expr } = b := by
        rintro ⟨pattern, expr, attributes, span⟩ hb
        have hexpr : f expr = expr :=
          h expr (List.mem_filterMap.2 ⟨.expr expr, List.mem_map_of_mem hb, rfl⟩)
        rw [hexpr]
      rw [StructureShape.edit, Edit.mapping_expr, List.map_congr_left hbinding, List.map_id']
  | .module binding, h => by
      rw [StructureShape.edit, ModuleBinding.edit_mapping_eq_self path binding h]
  | .recModules bindings, h => by
      rw [StructureShape.edit, ModuleBinding.editAll_mapping_eq_self path bindings h]
  | .moduleType decl, h => by
      rw [StructureShape.edit, ModuleTypeDecl.edit_mapping_eq_self path decl h]
  | .include module _, h => by
      rw [StructureShape.edit, ModuleExpr.edit_mapping_eq_self path module h]

/-- So does one of a signature. -/
theorem SignatureItem.editAll_mapping_eq_self (path : ModulePath) :
    (items : List (SignatureItem π)) →
    Encounter.Fixed f (SignatureItem.walkAll Span.nowhere items) →
    SignatureItem.editAll (.mapping f) path items = items
  | [], _ => rfl
  | item :: rest, h => by
      obtain ⟨hitem, hrest⟩ := Encounter.fixed_append.1 h
      rw [SignatureItem.editAll, if_neg (by simp), Edit.mapping_signatureAfter,
        SignatureItem.edit_mapping_eq_self path item hitem,
        SignatureItem.editAll_mapping_eq_self path rest hrest]
      rfl

theorem SignatureItem.edit_mapping_eq_self (path : ModulePath) : (item : SignatureItem π) →
    Encounter.Fixed f (item.walk Span.nowhere) → item.edit (.mapping f) path = item
  | ⟨shape, _⟩, h => by
      rw [SignatureItem.edit, SignatureShape.edit_mapping_eq_self path shape h]

theorem SignatureShape.edit_mapping_eq_self (path : ModulePath) : (shape : SignatureShape π) →
    Encounter.Fixed f (shape.walk Span.nowhere) → shape.edit (.mapping f) path = shape
  | .value _, _ | .types _ _, _ | .extend _, _ | .openModule _, _ | .attribute _, _
  | .extension _ _, _ => rfl
  | .module decl, h => by
      rw [SignatureShape.edit, ModuleDecl.edit_mapping_eq_self path decl h]
  | .recModules decls, h => by
      rw [SignatureShape.edit, ModuleDecl.editAll_mapping_eq_self path decls h]
  | .moduleType decl, h => by
      rw [SignatureShape.edit, ModuleTypeDecl.edit_mapping_eq_self path decl h]
  | .include type _, h => by
      rw [SignatureShape.edit, ModuleType.edit_mapping_eq_self path type h]

/-- A module expression stays as it is if its expressions do. -/
theorem ModuleExpr.edit_mapping_eq_self (path : ModulePath) : (e : ModuleExpr π) →
    Encounter.Fixed f (e.walk Span.nowhere) → e.edit (.mapping f) path = e
  | ⟨shape, _, _⟩, h => by
      rw [ModuleExpr.edit, ModuleExprShape.edit_mapping_eq_self path shape h]

theorem ModuleExprShape.edit_mapping_eq_self (path : ModulePath) : (shape : ModuleExprShape π) →
    Encounter.Fixed f (shape.walk Span.nowhere) → shape.edit (.mapping f) path = shape
  | .ident _, _ | .extension _, _ => rfl
  | .structure items, h => by
      rw [ModuleExprShape.edit, StructureItem.editAll_mapping_eq_self path items h]
  | .functor param body, h => by
      obtain ⟨hparam, hbody⟩ := Encounter.fixed_append.1 h
      rw [ModuleExprShape.edit, FunctorParam.edit_mapping_eq_self path param hparam,
        ModuleExpr.edit_mapping_eq_self path body hbody]
  | .apply callee arg, h => by
      obtain ⟨hcallee, harg⟩ := Encounter.fixed_append.1 h
      rw [ModuleExprShape.edit, ModuleExpr.edit_mapping_eq_self path callee hcallee,
        ModuleExpr.edit_mapping_eq_self path arg harg]
  | .constraint module type, h => by
      obtain ⟨hmodule, htype⟩ := Encounter.fixed_append.1 h
      rw [ModuleExprShape.edit, ModuleExpr.edit_mapping_eq_self path module hmodule,
        ModuleType.edit_mapping_eq_self path type htype]

/-- And so does a module type. -/
theorem ModuleType.edit_mapping_eq_self (path : ModulePath) : (t : ModuleType π) →
    Encounter.Fixed f (t.walk Span.nowhere) → t.edit (.mapping f) path = t
  | ⟨shape, _, _⟩, h => by
      rw [ModuleType.edit, ModuleTypeShape.edit_mapping_eq_self path shape h]

theorem ModuleTypeShape.edit_mapping_eq_self (path : ModulePath) : (shape : ModuleTypeShape π) →
    Encounter.Fixed f (shape.walk Span.nowhere) → shape.edit (.mapping f) path = shape
  | .ident _, _ | .aliased _, _ | .extension _, _ => rfl
  | .signature items, h => by
      rw [ModuleTypeShape.edit, SignatureItem.editAll_mapping_eq_self path items h]
  | .functor param body, h => by
      obtain ⟨hparam, hbody⟩ := Encounter.fixed_append.1 h
      rw [ModuleTypeShape.edit, FunctorParam.edit_mapping_eq_self path param hparam,
        ModuleType.edit_mapping_eq_self path body hbody]

/-- The parameter of a functor. -/
theorem FunctorParam.edit_mapping_eq_self (path : ModulePath) : (p : FunctorParam π) →
    Encounter.Fixed f (p.walk Span.nowhere) → p.edit (.mapping f) path = p
  | .unit, _ => rfl
  | .named _ type, h => by
      rw [FunctorParam.edit, ModuleType.edit_mapping_eq_self path type h]

/-- A module with a name. -/
theorem ModuleBinding.edit_mapping_eq_self (path : ModulePath) : (b : ModuleBinding π) →
    Encounter.Fixed f (b.walk Span.nowhere) → b.edit (.mapping f) path = b
  | ⟨name, body, _, _⟩, h => by
      rw [ModuleBinding.edit, ModuleExpr.edit_mapping_eq_self (path.enter name.value) body
        (Encounter.fixed_inside.1 h)]

theorem ModuleBinding.editAll_mapping_eq_self (path : ModulePath) : (bs : List (ModuleBinding π)) →
    Encounter.Fixed f (ModuleBinding.walkAll Span.nowhere bs) →
    ModuleBinding.editAll (.mapping f) path bs = bs
  | [], _ => rfl
  | b :: rest, h => by
      obtain ⟨hb, hrest⟩ := Encounter.fixed_append.1 h
      rw [ModuleBinding.editAll, ModuleBinding.edit_mapping_eq_self path b hb,
        ModuleBinding.editAll_mapping_eq_self path rest hrest]

/-- A declared module. -/
theorem ModuleDecl.edit_mapping_eq_self (path : ModulePath) : (d : ModuleDecl π) →
    Encounter.Fixed f (d.walk Span.nowhere) → d.edit (.mapping f) path = d
  | ⟨name, type, _, _⟩, h => by
      rw [ModuleDecl.edit, ModuleType.edit_mapping_eq_self (path.enter name.value) type
        (Encounter.fixed_inside.1 h)]

theorem ModuleDecl.editAll_mapping_eq_self (path : ModulePath) : (ds : List (ModuleDecl π)) →
    Encounter.Fixed f (ModuleDecl.walkAll Span.nowhere ds) →
    ModuleDecl.editAll (.mapping f) path ds = ds
  | [], _ => rfl
  | d :: rest, h => by
      obtain ⟨hd, hrest⟩ := Encounter.fixed_append.1 h
      rw [ModuleDecl.editAll, ModuleDecl.edit_mapping_eq_self path d hd,
        ModuleDecl.editAll_mapping_eq_self path rest hrest]

/-- A declared module type. -/
theorem ModuleTypeDecl.edit_mapping_eq_self (path : ModulePath) : (d : ModuleTypeDecl π) →
    Encounter.Fixed f (d.walk Span.nowhere) → d.edit (.mapping f) path = d
  | ⟨_, none, _, _⟩, _ => rfl
  | ⟨name, some type, _, _⟩, h => by
      rw [ModuleTypeDecl.edit, ModuleType.edit_mapping_eq_self (path.enter (some name.value)) type
        (Encounter.fixed_inside.1 h)]

end

end Mapping

/-- A unit without placeholders has nothing to fill. -/
theorem SourceUnit.fill_eq_self (put : Placeholder π → Expr π) {u : SourceUnit π}
    (h : u.placeholders = []) : u.fill put = u := by
  have hfixed : Encounter.Fixed (Expr.fill put) u.walk := fun e he =>
    Expr.replaceOutermost_eq_self put e (List.flatMap_eq_nil_iff.1 h e he)
  match u with
  | .structure items =>
      rw [fill, edit, StructureItem.editAll_mapping_eq_self .root items hfixed]
  | .signature items =>
      rw [fill, edit, SignatureItem.editAll_mapping_eq_self .root items hfixed]

end DeriveKit
