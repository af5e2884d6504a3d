import DeriveKit.Proofs.Edit

/-!
# DeriveKit.Proofs.Agreement

What an edit does to a unit depends on what it does at the items and expressions that a walk meets:
edits that agree there (`Edit.Agree`) change the unit alike (`SourceUnit.edit_congr`). What they do
elsewhere does not matter, so this compares the expansions by two registries that differ in
generators that the unit does not ask for. An item is among what a walk through it meets
(`StructureItem.self_mem_walk`), and the walk through a part is part of the walk.
-/

namespace DeriveKit

variable {π : Type}

/-- Two edits do the same at an encounter in a unit whose items live at `path`. -/
def Edit.AgreeAt (t t' : Edit π) (path : ModulePath) : Encounter π → Prop
  | .item names (.structure item) =>
      t.drops item.span = t'.drops item.span ∧ ∀ s ∈ item.subject?,
        t.structureAfter (path.within names) s = t'.structureAfter (path.within names) s
  | .item names (.signature item) =>
      t.drops item.span = t'.drops item.span ∧ ∀ s ∈ item.subject?,
        t.signatureAfter (path.within names) s = t'.signatureAfter (path.within names) s
  | .expr e => t.expr e = t'.expr e

/-- Two edits do the same at all that is met. -/
def Edit.Agree (t t' : Edit π) (path : ModulePath) (es : List (Encounter π)) : Prop :=
  ∀ e ∈ es, t.AgreeAt t' path e

namespace Edit

variable {t t' : Edit π} {path : ModulePath} {es fs : List (Encounter π)}

/-- Two edits agree on a walk exactly if they do on its parts (`Edit.Agree`). -/
theorem agree_append : Agree t t' path (es ++ fs) ↔ Agree t t' path es ∧ Agree t t' path fs :=
  List.forall_mem_append

/-- Inside a module they have to agree at the path that leads into it. -/
theorem agree_inside {name : Option String} :
    Agree t t' path (es.map (·.inside name)) ↔ Agree t t' (path.enter name) es := by
  have hinside : ∀ e : Encounter π,
      t.AgreeAt t' path (e.inside name) ↔ t.AgreeAt t' (path.enter name) e := by
    intro e
    match e with
    | .item names (.structure item) | .item names (.signature item) =>
        rw [Encounter.inside, AgreeAt, AgreeAt, ModulePath.within_append]
    | .expr e => rfl
  simp only [Agree, List.forall_mem_map, hinside]

/-- What agreeing edits put after an item of a structure. -/
theorem AgreeAt.structureAfter_eq {item : StructureItem π}
    (h : t.AgreeAt t' path (.item [] (.structure item))) :
    item.subject?.elim [] (t.structureAfter path) =
      item.subject?.elim [] (t'.structureAfter path) := by
  rw [AgreeAt, ModulePath.within_nil] at h
  cases hs : item.subject? with
  | none => rfl
  | some s => exact h.2 s hs

/-- What agreeing edits put after an item of a signature. -/
theorem AgreeAt.signatureAfter_eq {item : SignatureItem π}
    (h : t.AgreeAt t' path (.item [] (.signature item))) :
    item.subject?.elim [] (t.signatureAfter path) =
      item.subject?.elim [] (t'.signatureAfter path) := by
  rw [AgreeAt, ModulePath.within_nil] at h
  cases hs : item.subject? with
  | none => rfl
  | some s => exact h.2 s hs

end Edit

/-- A walk through an item meets the item itself. -/
theorem StructureItem.self_mem_walk (item : StructureItem π) (shut : Span → Bool) :
    .item [] (.structure item) ∈ item.walk shut := by
  cases item
  exact List.mem_cons_self

/-- A walk through an item of a signature meets the item itself. -/
theorem SignatureItem.self_mem_walk (item : SignatureItem π) (shut : Span → Bool) :
    .item [] (.signature item) ∈ item.walk shut := by
  cases item
  exact List.mem_cons_self

variable {t t' : Edit π}

/- Edits that agree at all that a walk meets do the same: one case for each form, as in the walk. -/
mutual

/-- Edits that agree on a structure change it alike. By recursion on the tree, along with the walk:
whatever an edit looks at is met by the walk. -/
theorem StructureItem.editAll_congr (path : ModulePath) : (items : List (StructureItem π)) →
    t.Agree t' path (StructureItem.walkAll Span.nowhere items) →
    StructureItem.editAll t path items = StructureItem.editAll t' path items
  | [], _ => rfl
  | item :: rest, h => by
      obtain ⟨hitem, hrest⟩ := Edit.agree_append.1 h
      have hmet := hitem _ (StructureItem.self_mem_walk item Span.nowhere)
      rw [StructureItem.editAll, StructureItem.editAll, hmet.1, hmet.structureAfter_eq,
        StructureItem.edit_congr path item hitem, StructureItem.editAll_congr path rest hrest]

/-- Inside an item. -/
theorem StructureItem.edit_congr (path : ModulePath) : (item : StructureItem π) →
    t.Agree t' path (item.walk Span.nowhere) → item.edit t path = item.edit t' path
  | ⟨shape, _⟩, h => by
      rw [StructureItem.edit, StructureItem.edit,
        StructureShape.edit_congr path shape fun e he => h e (List.mem_cons_of_mem _ he)]

/-- Inside a form of item. Those with expressions are where the edits have to agree about
expressions. -/
theorem StructureShape.edit_congr (path : ModulePath) : (shape : StructureShape π) →
    t.Agree t' path (shape.walk Span.nowhere) → shape.edit t path = shape.edit t' path
  | .primitive _, _ | .types _ _, _ | .extend _, _ | .openModule _, _ | .attribute _, _
  | .extension _ _, _ => rfl
  | .eval expr attributes, h => by
      have hexpr : t.expr expr = t'.expr expr := h (.expr expr) (List.mem_singleton.2 rfl)
      rw [StructureShape.edit, StructureShape.edit, hexpr]
  | .value recursion bindings, h => by
      have hbinding : ∀ b ∈ bindings, t.expr b.expr = t'.expr b.expr := fun b hb =>
        h (.expr b.expr) (List.mem_map_of_mem hb)
      rw [StructureShape.edit, StructureShape.edit,
        List.map_congr_left fun b hb => by rw [hbinding b hb]]
  | .module binding, h => by
      rw [StructureShape.edit, StructureShape.edit, ModuleBinding.edit_congr path binding h]
  | .recModules bindings, h => by
      rw [StructureShape.edit, StructureShape.edit, ModuleBinding.editAll_congr path bindings h]
  | .moduleType decl, h => by
      rw [StructureShape.edit, StructureShape.edit, ModuleTypeDecl.edit_congr path decl h]
  | .include module _, h => by
      rw [StructureShape.edit, StructureShape.edit, ModuleExpr.edit_congr path module h]

/-- Edits that agree on a signature change it alike. -/
theorem SignatureItem.editAll_congr (path : ModulePath) : (items : List (SignatureItem π)) →
    t.Agree t' path (SignatureItem.walkAll Span.nowhere items) →
    SignatureItem.editAll t path items = SignatureItem.editAll t' path items
  | [], _ => rfl
  | item :: rest, h => by
      obtain ⟨hitem, hrest⟩ := Edit.agree_append.1 h
      have hmet := hitem _ (SignatureItem.self_mem_walk item Span.nowhere)
      rw [SignatureItem.editAll, SignatureItem.editAll, hmet.1, hmet.signatureAfter_eq,
        SignatureItem.edit_congr path item hitem, SignatureItem.editAll_congr path rest hrest]

/-- Inside an item of a signature, which holds no expressions. -/
theorem SignatureItem.edit_congr (path : ModulePath) : (item : SignatureItem π) →
    t.Agree t' path (item.walk Span.nowhere) → item.edit t path = item.edit t' path
  | ⟨shape, _⟩, h => by
      rw [SignatureItem.edit, SignatureItem.edit,
        SignatureShape.edit_congr path shape fun e he => h e (List.mem_cons_of_mem _ he)]

theorem SignatureShape.edit_congr (path : ModulePath) : (shape : SignatureShape π) →
    t.Agree t' path (shape.walk Span.nowhere) → shape.edit t path = shape.edit t' path
  | .value _, _ | .types _ _, _ | .extend _, _ | .openModule _, _ | .attribute _, _
  | .extension _ _, _ => rfl
  | .module decl, h => by
      rw [SignatureShape.edit, SignatureShape.edit, ModuleDecl.edit_congr path decl h]
  | .recModules decls, h => by
      rw [SignatureShape.edit, SignatureShape.edit, ModuleDecl.editAll_congr path decls h]
  | .moduleType decl, h => by
      rw [SignatureShape.edit, SignatureShape.edit, ModuleTypeDecl.edit_congr path decl h]
  | .include type _, h => by
      rw [SignatureShape.edit, SignatureShape.edit, ModuleType.edit_congr path type h]

/-- Edits that agree on a module expression change it alike. -/
theorem ModuleExpr.edit_congr (path : ModulePath) : (e : ModuleExpr π) →
    t.Agree t' path (e.walk Span.nowhere) → e.edit t path = e.edit t' path
  | ⟨shape, _, _⟩, h => by
      rw [ModuleExpr.edit, ModuleExpr.edit, ModuleExprShape.edit_congr path shape h]

theorem ModuleExprShape.edit_congr (path : ModulePath) : (shape : ModuleExprShape π) →
    t.Agree t' path (shape.walk Span.nowhere) → shape.edit t path = shape.edit t' path
  | .ident _, _ | .extension _, _ => rfl
  | .structure items, h => by
      rw [ModuleExprShape.edit, ModuleExprShape.edit, StructureItem.editAll_congr path items h]
  | .functor param body, h => by
      obtain ⟨hparam, hbody⟩ := Edit.agree_append.1 h
      rw [ModuleExprShape.edit, ModuleExprShape.edit, FunctorParam.edit_congr path param hparam,
        ModuleExpr.edit_congr path body hbody]
  | .apply functor arg, h => by
      obtain ⟨hfunctor, harg⟩ := Edit.agree_append.1 h
      rw [ModuleExprShape.edit, ModuleExprShape.edit, ModuleExpr.edit_congr path functor hfunctor,
        ModuleExpr.edit_congr path arg harg]
  | .constraint module type, h => by
      obtain ⟨hmodule, htype⟩ := Edit.agree_append.1 h
      rw [ModuleExprShape.edit, ModuleExprShape.edit, ModuleExpr.edit_congr path module hmodule,
        ModuleType.edit_congr path type htype]

/-- And so with a module type. -/
theorem ModuleType.edit_congr (path : ModulePath) : (u : ModuleType π) →
    t.Agree t' path (u.walk Span.nowhere) → u.edit t path = u.edit t' path
  | ⟨shape, _, _⟩, h => by
      rw [ModuleType.edit, ModuleType.edit, ModuleTypeShape.edit_congr path shape h]

theorem ModuleTypeShape.edit_congr (path : ModulePath) : (shape : ModuleTypeShape π) →
    t.Agree t' path (shape.walk Span.nowhere) → shape.edit t path = shape.edit t' path
  | .ident _, _ | .aliased _, _ | .extension _, _ => rfl
  | .signature items, h => by
      rw [ModuleTypeShape.edit, ModuleTypeShape.edit, SignatureItem.editAll_congr path items h]
  | .functor param body, h => by
      obtain ⟨hparam, hbody⟩ := Edit.agree_append.1 h
      rw [ModuleTypeShape.edit, ModuleTypeShape.edit, FunctorParam.edit_congr path param hparam,
        ModuleType.edit_congr path body hbody]

/-- The parameter of a functor, whose name opens no path. -/
theorem FunctorParam.edit_congr (path : ModulePath) : (p : FunctorParam π) →
    t.Agree t' path (p.walk Span.nowhere) → p.edit t path = p.edit t' path
  | .unit, _ => rfl
  | .named _ type, h => by
      rw [FunctorParam.edit, FunctorParam.edit, ModuleType.edit_congr path type h]

/-- A module with a name, where the path goes one step further. -/
theorem ModuleBinding.edit_congr (path : ModulePath) : (b : ModuleBinding π) →
    t.Agree t' path (b.walk Span.nowhere) → b.edit t path = b.edit t' path
  | ⟨name, body, _, _⟩, h => by
      rw [ModuleBinding.edit, ModuleBinding.edit,
        ModuleExpr.edit_congr (path.enter name.value) body (Edit.agree_inside.1 h)]

theorem ModuleBinding.editAll_congr (path : ModulePath) : (bs : List (ModuleBinding π)) →
    t.Agree t' path (ModuleBinding.walkAll Span.nowhere bs) →
    ModuleBinding.editAll t path bs = ModuleBinding.editAll t' path bs
  | [], _ => rfl
  | b :: rest, h => by
      obtain ⟨hb, hrest⟩ := Edit.agree_append.1 h
      rw [ModuleBinding.editAll, ModuleBinding.editAll, ModuleBinding.edit_congr path b hb,
        ModuleBinding.editAll_congr path rest hrest]

/-- A declared module. -/
theorem ModuleDecl.edit_congr (path : ModulePath) : (d : ModuleDecl π) →
    t.Agree t' path (d.walk Span.nowhere) → d.edit t path = d.edit t' path
  | ⟨name, type, _, _⟩, h => by
      rw [ModuleDecl.edit, ModuleDecl.edit,
        ModuleType.edit_congr (path.enter name.value) type (Edit.agree_inside.1 h)]

theorem ModuleDecl.editAll_congr (path : ModulePath) : (ds : List (ModuleDecl π)) →
    t.Agree t' path (ModuleDecl.walkAll Span.nowhere ds) →
    ModuleDecl.editAll t path ds = ModuleDecl.editAll t' path ds
  | [], _ => rfl
  | d :: rest, h => by
      obtain ⟨hd, hrest⟩ := Edit.agree_append.1 h
      rw [ModuleDecl.editAll, ModuleDecl.editAll, ModuleDecl.edit_congr path d hd,
        ModuleDecl.editAll_congr path rest hrest]

/-- A declared module type; there is nothing to change in an abstract one. -/
theorem ModuleTypeDecl.edit_congr (path : ModulePath) : (d : ModuleTypeDecl π) →
    t.Agree t' path (d.walk Span.nowhere) → d.edit t path = d.edit t' path
  | ⟨_, none, _, _⟩, _ => rfl
  | ⟨name, some type, _, _⟩, h => by
      rw [ModuleTypeDecl.edit, ModuleTypeDecl.edit,
        ModuleType.edit_congr (path.enter (some name.value)) type (Edit.agree_inside.1 h)]

end

/-- Edits that agree at all that a walk meets do the same to a unit. -/
theorem SourceUnit.edit_congr (path : ModulePath) : (u : SourceUnit π) →
    t.Agree t' path u.walk → u.edit t path = u.edit t' path
  | .structure items, h =>
      congrArg SourceUnit.structure (StructureItem.editAll_congr path items h)
  | .signature items, h =>
      congrArg SourceUnit.signature (SignatureItem.editAll_congr path items h)

end DeriveKit
