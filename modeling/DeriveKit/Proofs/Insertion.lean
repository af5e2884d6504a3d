import DeriveKit.Proofs.Edit

/-!
# DeriveKit.Proofs.Insertion

Edits that insert items at one place `m`, into units that have no item there (`Avoid`). In the
result the items at `m` are exactly those inserted, in the order of the sites
(`markedAmong_editAll`), and leaving them out gives the unit back, apart from its expressions
(`editAll_deleting`).

* `Edit.InsertsAt` — all that an edit puts after an item stands at `m`;
* `markedAmong` and `sitesAmong` — the items at `m` and the sites among what a walk meets;
* `Edit.after` — what an edit puts after the item of a site.

Both results go by recursion over the lists of items and the modules in them, as the edit does.
-/

namespace DeriveKit

variable {π : Type}

/-! ## items at a place -/

namespace Encounter

/-- The items at `m` that are met. -/
def markedAmong (m : Span) (es : List (Encounter π)) : List (Item π) :=
  (es.filterMap (·.item?)).filter (·.span == m)

/-- None of the items that are met is at `m`. -/
def Avoid (m : Span) (es : List (Encounter π)) : Prop := ∀ i ∈ es.filterMap (·.item?), i.span ≠ m

/-- The sites that are met in a unit whose items live at `path`. -/
def sitesAmong (path : ModulePath) (es : List (Encounter π)) : List (Site π) :=
  es.filterMap (·.site? path)

variable {m : Span} {es fs : List (Encounter π)} {name : Option String} {path : ModulePath}

/-- What is found at `m` in two walks is found in the one after the other. -/
theorem markedAmong_append :
    markedAmong m (es ++ fs) = markedAmong m es ++ markedAmong m fs := by
  rw [markedAmong, List.filterMap_append, List.filter_append, markedAmong, markedAmong]

/-- The module that an item stands in plays no part in where it is written. -/
theorem markedAmong_inside : markedAmong m (es.map (·.inside name)) = markedAmong m es := by
  simp only [markedAmong, List.filterMap_map, Function.comp_def, item?_inside]

/-- No item of a walk is at `m` exactly if none of its parts has one there. -/
theorem avoid_append : Avoid m (es ++ fs) ↔ Avoid m es ∧ Avoid m fs := by
  simp only [Avoid, List.filterMap_append, List.forall_mem_append]

/-- An item that is met is itself subject to the condition. -/
theorem avoid_cons {names : List String} {i : Item π} :
    Avoid m (.item names i :: es) ↔ i.span ≠ m ∧ Avoid m es := by
  simp only [Avoid, List.filterMap_cons, item?, List.forall_mem_cons]

/-- Entering a module changes no place. -/
theorem avoid_inside : Avoid m (es.map (·.inside name)) ↔ Avoid m es := by
  simp only [Avoid, List.filterMap_map, Function.comp_def, item?_inside]

/-- The sites of two walks are those of the one, and then those of the other. -/
theorem sitesAmong_append :
    sitesAmong path (es ++ fs) = sitesAmong path es ++ sitesAmong path fs := by
  rw [sitesAmong, List.filterMap_append, sitesAmong, sitesAmong]

/-- An item gives one site if it has a subject, and none otherwise. -/
theorem sitesAmong_item (i : Item π) :
    sitesAmong path (.item [] i :: es) = (i.site? path).toList ++ sitesAmong path es := by
  rw [sitesAmong, List.filterMap_cons, site?, ModulePath.within_nil]
  cases i.site? path <;> rfl

/-- Inside a module, sites live at the path that leads into it. -/
theorem sitesAmong_inside :
    sitesAmong path (es.map (·.inside name)) = sitesAmong (path.enter name) es := by
  simp only [sitesAmong, List.filterMap_map, Function.comp_def, site?_inside]

/-- Expressions are no items, so nothing is found among them. -/
theorem markedAmong_exprs_map {α : Type} (f : α → Expr π) (l : List α) :
    markedAmong m (l.map fun a => .expr (f a)) = [] := by
  simp [markedAmong, List.filterMap_map, item?]

/-- Expressions have no sites. -/
theorem sitesAmong_exprs_map {α : Type} (f : α → Expr π) (l : List α) :
    sitesAmong path (l.map fun a => .expr (f a)) = [] := by
  simp [sitesAmong, List.filterMap_map, site?]

end Encounter

/-! ## what an edit inserts -/

/-- The items that an edit puts after a site. -/
def Edit.after (t : Edit π) : Site π → List (Item π)
  | .structure path subject => (t.structureAfter path subject).map .structure
  | .signature path subject => (t.signatureAfter path subject).map .signature

/-- An edit leaves nothing out, and what it inserts is at `m`. -/
structure Edit.InsertsAt (t : Edit π) (m : Span) : Prop where
  drops : t.drops = Span.nowhere
  structureAfter : ∀ path subject, ∀ i ∈ t.structureAfter path subject, i.span = m
  signatureAfter : ∀ path subject, ∀ i ∈ t.signatureAfter path subject, i.span = m

/-- Whatever an edit puts after an item is at `m`. -/
theorem Edit.InsertsAt.span_of_structureAfter {t : Edit π} {m : Span} (ht : t.InsertsAt m)
    (path : ModulePath) (subject? : Option (Subject π)) :
    ∀ i ∈ subject?.elim [] (t.structureAfter path), i.span = m := by
  cases subject? with
  | none => exact nofun
  | some subject => exact ht.structureAfter path subject

/-- The same holds of items of signatures. -/
theorem Edit.InsertsAt.span_of_signatureAfter {t : Edit π} {m : Span} (ht : t.InsertsAt m)
    (path : ModulePath) (subject? : Option (Subject π)) :
    ∀ i ∈ subject?.elim [] (t.signatureAfter path), i.span = m := by
  cases subject? with
  | none => exact nofun
  | some subject => exact ht.signatureAfter path subject

/-- A walk that does not look into items at `m` meets nothing but them in a list of such items. -/
theorem StructureItem.markedAmong_of_forall {m : Span} {items : List (StructureItem π)}
    (h : ∀ i ∈ items, i.span = m) :
    Encounter.markedAmong m (StructureItem.walkAll (· == m) items) = items.map .structure := by
  induction items with
  | nil => rfl
  | cons item rest ih =>
      rw [List.forall_mem_cons] at h
      obtain ⟨shape, span⟩ := item
      obtain rfl : span = m := h.1
      rw [StructureItem.walkAll, StructureItem.walk, Encounter.markedAmong_append, ih h.2,
        if_pos (beq_self_eq_true span)]
      simp [Encounter.markedAmong, Encounter.item?, Item.span]

/-- And it meets nothing else in a list of such items of a signature. -/
theorem SignatureItem.markedAmong_of_forall {m : Span} {items : List (SignatureItem π)}
    (h : ∀ i ∈ items, i.span = m) :
    Encounter.markedAmong m (SignatureItem.walkAll (· == m) items) = items.map .signature := by
  induction items with
  | nil => rfl
  | cons item rest ih =>
      rw [List.forall_mem_cons] at h
      obtain ⟨shape, span⟩ := item
      obtain rfl : span = m := h.1
      rw [SignatureItem.walkAll, SignatureItem.walk, Encounter.markedAmong_append, ih h.2,
        if_pos (beq_self_eq_true span)]
      simp [Encounter.markedAmong, Encounter.item?, Item.span]

/-- Walking a longer structure is walking one part after the other. -/
theorem StructureItem.walkAll_append (shut : Span → Bool) (xs ys : List (StructureItem π)) :
    StructureItem.walkAll shut (xs ++ ys) =
      StructureItem.walkAll shut xs ++ StructureItem.walkAll shut ys := by
  induction xs with
  | nil => rfl
  | cons x xs ih => rw [List.cons_append, walkAll, ih, walkAll, List.append_assoc]

/-- Walking a longer signature is walking one part after the other. -/
theorem SignatureItem.walkAll_append (shut : Span → Bool) (xs ys : List (SignatureItem π)) :
    SignatureItem.walkAll shut (xs ++ ys) =
      SignatureItem.walkAll shut xs ++ SignatureItem.walkAll shut ys := by
  induction xs with
  | nil => rfl
  | cons x xs ih => rw [List.cons_append, walkAll, ih, walkAll, List.append_assoc]

/-- Leaving out what stands at `m` from items that all do leaves nothing. -/
theorem StructureItem.editAll_deleting_of_forall {m : Span} (path : ModulePath)
    {items : List (StructureItem π)} (h : ∀ i ∈ items, i.span = m) :
    StructureItem.editAll (.deleting m) path items = [] := by
  induction items with
  | nil => rfl
  | cons item rest ih =>
      rw [List.forall_mem_cons] at h
      rw [editAll, if_pos (by simp [h.1]), ih h.2]

/-- Nor is anything left of items of a signature that all stand at `m`. -/
theorem SignatureItem.editAll_deleting_of_forall {m : Span} (path : ModulePath)
    {items : List (SignatureItem π)} (h : ∀ i ∈ items, i.span = m) :
    SignatureItem.editAll (.deleting m) path items = [] := by
  induction items with
  | nil => rfl
  | cons item rest ih =>
      rw [List.forall_mem_cons] at h
      rw [editAll, if_pos (by simp [h.1]), ih h.2]

/-- A structure is edited part by part, since an edit sees one item at a time. -/
theorem StructureItem.editAll_append (t : Edit π) (path : ModulePath)
    (xs ys : List (StructureItem π)) :
    StructureItem.editAll t path (xs ++ ys) =
      StructureItem.editAll t path xs ++ StructureItem.editAll t path ys := by
  induction xs with
  | nil => rfl
  | cons x xs ih =>
      rw [List.cons_append, editAll, ih, editAll]
      split
      · rfl
      · rw [List.append_assoc]

/-- So is a signature. -/
theorem SignatureItem.editAll_append (t : Edit π) (path : ModulePath)
    (xs ys : List (SignatureItem π)) :
    SignatureItem.editAll t path (xs ++ ys) =
      SignatureItem.editAll t path xs ++ SignatureItem.editAll t path ys := by
  induction xs with
  | nil => rfl
  | cons x xs ih =>
      rw [List.cons_append, editAll, ih, editAll]
      split
      · rfl
      · rw [List.append_assoc]

/-! ## finding what was inserted -/

/- An item comes before what is inserted after it, and a walk goes through its inside in between.
Only annotated declarations have something inserted after them, and they have nothing inside, so in
the order of the walk what is inside an item may be counted before or after what follows it. -/

section InsertsAt

variable {t : Edit π} {m : Span} (ht : t.InsertsAt m)

include ht

set_option linter.unusedSectionVars false

/-- What is found in an edited item and after it belongs to the item and to what is inside. -/
theorem StructureItem.markedAmong_edit_after (path : ModulePath) (item : StructureItem π)
    (hinside : Encounter.markedAmong m ((item.edit t path).walk (· == m)) =
      (Encounter.sitesAmong path (item.shape.walk Span.nowhere)).flatMap t.after) :
    Encounter.markedAmong m (StructureItem.walkAll (· == m)
        (item.edit t path :: item.subject?.elim [] (t.structureAfter path))) =
      (Encounter.sitesAmong path (item.walk Span.nowhere)).flatMap t.after := by
  obtain ⟨shape, span⟩ := item
  have hafter := ht.span_of_structureAfter path (subject? ⟨shape, span⟩)
  have hwalk : Encounter.sitesAmong path (StructureItem.walk Span.nowhere ⟨shape, span⟩) =
      ((subject? ⟨shape, span⟩).map (.structure path)).toList ++
        Encounter.sitesAmong path (shape.walk Span.nowhere) := by
    rw [walk, if_neg (by simp), Encounter.sitesAmong_item, Item.site?]
  rw [walkAll, Encounter.markedAmong_append, hinside, markedAmong_of_forall hafter, hwalk,
    List.flatMap_append]
  cases hs : subject? ⟨shape, span⟩ with
  | none => simp
  | some s => simp [walk_of_subject? hs, Edit.after, Encounter.sitesAmong]

/-- What is found in an edited item of a signature and after it belongs to the item and to what is
inside. -/
theorem SignatureItem.markedAmong_edit_after (path : ModulePath) (item : SignatureItem π)
    (hinside : Encounter.markedAmong m ((item.edit t path).walk (· == m)) =
      (Encounter.sitesAmong path (item.shape.walk Span.nowhere)).flatMap t.after) :
    Encounter.markedAmong m (SignatureItem.walkAll (· == m)
        (item.edit t path :: item.subject?.elim [] (t.signatureAfter path))) =
      (Encounter.sitesAmong path (item.walk Span.nowhere)).flatMap t.after := by
  obtain ⟨shape, span⟩ := item
  have hafter := ht.span_of_signatureAfter path (subject? ⟨shape, span⟩)
  have hwalk : Encounter.sitesAmong path (SignatureItem.walk Span.nowhere ⟨shape, span⟩) =
      ((subject? ⟨shape, span⟩).map (.signature path)).toList ++
        Encounter.sitesAmong path (shape.walk Span.nowhere) := by
    rw [walk, if_neg (by simp), Encounter.sitesAmong_item, Item.site?]
  rw [walkAll, Encounter.markedAmong_append, hinside, markedAmong_of_forall hafter, hwalk,
    List.flatMap_append]
  cases hs : subject? ⟨shape, span⟩ with
  | none => simp
  | some s => simp [walk_of_subject? hs, Edit.after, Encounter.sitesAmong]

mutual

/-- **The items found at `m` in an edited structure are those that the edit puts after its sites**,
in the order of the sites. By recursion on the tree: `markedAmong_edit_after` puts an item together
with what follows it, and the lemmas below go into the item. -/
theorem StructureItem.markedAmong_editAll (path : ModulePath) :
    (items : List (StructureItem π)) →
    Encounter.Avoid m (StructureItem.walkAll Span.nowhere items) →
    Encounter.markedAmong m (StructureItem.walkAll (· == m) (StructureItem.editAll t path items)) =
      (Encounter.sitesAmong path (StructureItem.walkAll Span.nowhere items)).flatMap t.after
  | [], _ => rfl
  | item :: rest, h => by
      obtain ⟨hitem, hrest⟩ := Encounter.avoid_append.1 h
      rw [StructureItem.editAll, if_neg (by simp [ht.drops]), StructureItem.walkAll_append,
        Encounter.markedAmong_append, StructureItem.markedAmong_editAll path rest hrest,
        StructureItem.markedAmong_edit_after ht path item
          (StructureItem.markedAmong_edit path item hitem),
        StructureItem.walkAll, Encounter.sitesAmong_append, List.flatMap_append]

/-- Inside an item, all that is found belongs to the sites inside. -/
theorem StructureItem.markedAmong_edit (path : ModulePath) : (item : StructureItem π) →
    Encounter.Avoid m (item.walk Span.nowhere) →
    Encounter.markedAmong m ((item.edit t path).walk (· == m)) =
      (Encounter.sitesAmong path (item.shape.walk Span.nowhere)).flatMap t.after
  | ⟨shape, span⟩, h => by
      rw [StructureItem.walk, if_neg (by simp)] at h
      obtain ⟨hspan, hshape⟩ := Encounter.avoid_cons.1 h
      have hne : (span == m) = false := beq_eq_false_iff_ne.2 hspan
      rw [StructureItem.edit, StructureItem.walk, hne, if_neg (by simp),
        ← StructureShape.markedAmong_edit path shape hshape]
      simp [Encounter.markedAmong, Encounter.item?, Item.span, hne]

/-- Only forms with modules in them have sites inside; in the others nothing is found. -/
theorem StructureShape.markedAmong_edit (path : ModulePath) : (shape : StructureShape π) →
    Encounter.Avoid m (shape.walk Span.nowhere) →
    Encounter.markedAmong m ((shape.edit t path).walk (· == m)) =
      (Encounter.sitesAmong path (shape.walk Span.nowhere)).flatMap t.after
  | .primitive _, _ | .types _ _, _ | .extend _, _ | .openModule _, _ | .attribute _, _
  | .extension _ _, _ | .eval _ _, _ => rfl
  | .value _ bindings, _ => by
      rw [StructureShape.edit, StructureShape.walk, StructureShape.walk,
        Encounter.markedAmong_exprs_map, Encounter.sitesAmong_exprs_map, List.flatMap_nil]
  | .module binding, h => by
      rw [StructureShape.edit, StructureShape.walk, StructureShape.walk,
        ModuleBinding.markedAmong_edit path binding h]
  | .recModules bindings, h => by
      rw [StructureShape.edit, StructureShape.walk, StructureShape.walk,
        ModuleBinding.markedAmong_editAll path bindings h]
  | .moduleType decl, h => by
      rw [StructureShape.edit, StructureShape.walk, StructureShape.walk,
        ModuleTypeDecl.markedAmong_edit path decl h]
  | .include module _, h => by
      rw [StructureShape.edit, StructureShape.walk, StructureShape.walk,
        ModuleExpr.markedAmong_edit path module h]

/-- The items found at `m` in an edited signature. -/
theorem SignatureItem.markedAmong_editAll (path : ModulePath) :
    (items : List (SignatureItem π)) →
    Encounter.Avoid m (SignatureItem.walkAll Span.nowhere items) →
    Encounter.markedAmong m (SignatureItem.walkAll (· == m) (SignatureItem.editAll t path items)) =
      (Encounter.sitesAmong path (SignatureItem.walkAll Span.nowhere items)).flatMap t.after
  | [], _ => rfl
  | item :: rest, h => by
      obtain ⟨hitem, hrest⟩ := Encounter.avoid_append.1 h
      rw [SignatureItem.editAll, if_neg (by simp [ht.drops]), SignatureItem.walkAll_append,
        Encounter.markedAmong_append, SignatureItem.markedAmong_editAll path rest hrest,
        SignatureItem.markedAmong_edit_after ht path item
          (SignatureItem.markedAmong_edit path item hitem),
        SignatureItem.walkAll, Encounter.sitesAmong_append, List.flatMap_append]

/-- Inside an item of a signature. -/
theorem SignatureItem.markedAmong_edit (path : ModulePath) : (item : SignatureItem π) →
    Encounter.Avoid m (item.walk Span.nowhere) →
    Encounter.markedAmong m ((item.edit t path).walk (· == m)) =
      (Encounter.sitesAmong path (item.shape.walk Span.nowhere)).flatMap t.after
  | ⟨shape, span⟩, h => by
      rw [SignatureItem.walk, if_neg (by simp)] at h
      obtain ⟨hspan, hshape⟩ := Encounter.avoid_cons.1 h
      have hne : (span == m) = false := beq_eq_false_iff_ne.2 hspan
      rw [SignatureItem.edit, SignatureItem.walk, hne, if_neg (by simp),
        ← SignatureShape.markedAmong_edit path shape hshape]
      simp [Encounter.markedAmong, Encounter.item?, Item.span, hne]

/-- Inside a form of item of a signature. -/
theorem SignatureShape.markedAmong_edit (path : ModulePath) : (shape : SignatureShape π) →
    Encounter.Avoid m (shape.walk Span.nowhere) →
    Encounter.markedAmong m ((shape.edit t path).walk (· == m)) =
      (Encounter.sitesAmong path (shape.walk Span.nowhere)).flatMap t.after
  | .value _, _ | .types _ _, _ | .extend _, _ | .openModule _, _ | .attribute _, _
  | .extension _ _, _ => rfl
  | .module decl, h => by
      rw [SignatureShape.edit, SignatureShape.walk, SignatureShape.walk,
        ModuleDecl.markedAmong_edit path decl h]
  | .recModules decls, h => by
      rw [SignatureShape.edit, SignatureShape.walk, SignatureShape.walk,
        ModuleDecl.markedAmong_editAll path decls h]
  | .moduleType decl, h => by
      rw [SignatureShape.edit, SignatureShape.walk, SignatureShape.walk,
        ModuleTypeDecl.markedAmong_edit path decl h]
  | .include type _, h => by
      rw [SignatureShape.edit, SignatureShape.walk, SignatureShape.walk,
        ModuleType.markedAmong_edit path type h]

/-- In a module expression, its attributes apart, which no walk enters. -/
theorem ModuleExpr.markedAmong_edit (path : ModulePath) : (e : ModuleExpr π) →
    Encounter.Avoid m (e.walk Span.nowhere) →
    Encounter.markedAmong m ((e.edit t path).walk (· == m)) =
      (Encounter.sitesAmong path (e.walk Span.nowhere)).flatMap t.after
  | ⟨shape, _, _⟩, h => by
      rw [ModuleExpr.edit, ModuleExpr.walk, ModuleExpr.walk,
        ModuleExprShape.markedAmong_edit path shape h]

/-- A structure is where items are; a functor and an application only pass on what is in their
parts. -/
theorem ModuleExprShape.markedAmong_edit (path : ModulePath) : (shape : ModuleExprShape π) →
    Encounter.Avoid m (shape.walk Span.nowhere) →
    Encounter.markedAmong m ((shape.edit t path).walk (· == m)) =
      (Encounter.sitesAmong path (shape.walk Span.nowhere)).flatMap t.after
  | .ident _, _ | .extension _, _ => rfl
  | .structure items, h => by
      rw [ModuleExprShape.edit, ModuleExprShape.walk, ModuleExprShape.walk,
        StructureItem.markedAmong_editAll path items h]
  | .functor param body, h => by
      obtain ⟨hparam, hbody⟩ := Encounter.avoid_append.1 h
      rw [ModuleExprShape.edit, ModuleExprShape.walk, ModuleExprShape.walk,
        Encounter.markedAmong_append, FunctorParam.markedAmong_edit path param hparam,
        ModuleExpr.markedAmong_edit path body hbody, Encounter.sitesAmong_append,
        List.flatMap_append]
  | .apply callee arg, h => by
      obtain ⟨hcallee, harg⟩ := Encounter.avoid_append.1 h
      rw [ModuleExprShape.edit, ModuleExprShape.walk, ModuleExprShape.walk,
        Encounter.markedAmong_append, ModuleExpr.markedAmong_edit path callee hcallee,
        ModuleExpr.markedAmong_edit path arg harg, Encounter.sitesAmong_append,
        List.flatMap_append]
  | .constraint module type, h => by
      obtain ⟨hmodule, htype⟩ := Encounter.avoid_append.1 h
      rw [ModuleExprShape.edit, ModuleExprShape.walk, ModuleExprShape.walk,
        Encounter.markedAmong_append, ModuleExpr.markedAmong_edit path module hmodule,
        ModuleType.markedAmong_edit path type htype, Encounter.sitesAmong_append,
        List.flatMap_append]

/-- In a module type. -/
theorem ModuleType.markedAmong_edit (path : ModulePath) : (u : ModuleType π) →
    Encounter.Avoid m (u.walk Span.nowhere) →
    Encounter.markedAmong m ((u.edit t path).walk (· == m)) =
      (Encounter.sitesAmong path (u.walk Span.nowhere)).flatMap t.after
  | ⟨shape, _, _⟩, h => by
      rw [ModuleType.edit, ModuleType.walk, ModuleType.walk,
        ModuleTypeShape.markedAmong_edit path shape h]

/-- A signature is where items are; a functor passes on what is in its parts. -/
theorem ModuleTypeShape.markedAmong_edit (path : ModulePath) : (shape : ModuleTypeShape π) →
    Encounter.Avoid m (shape.walk Span.nowhere) →
    Encounter.markedAmong m ((shape.edit t path).walk (· == m)) =
      (Encounter.sitesAmong path (shape.walk Span.nowhere)).flatMap t.after
  | .ident _, _ | .aliased _, _ | .extension _, _ => rfl
  | .signature items, h => by
      rw [ModuleTypeShape.edit, ModuleTypeShape.walk, ModuleTypeShape.walk,
        SignatureItem.markedAmong_editAll path items h]
  | .functor param body, h => by
      obtain ⟨hparam, hbody⟩ := Encounter.avoid_append.1 h
      rw [ModuleTypeShape.edit, ModuleTypeShape.walk, ModuleTypeShape.walk,
        Encounter.markedAmong_append, FunctorParam.markedAmong_edit path param hparam,
        ModuleType.markedAmong_edit path body hbody, Encounter.sitesAmong_append,
        List.flatMap_append]

/-- In the module type of a parameter, which has no name to add to the path. -/
theorem FunctorParam.markedAmong_edit (path : ModulePath) : (p : FunctorParam π) →
    Encounter.Avoid m (p.walk Span.nowhere) →
    Encounter.markedAmong m ((p.edit t path).walk (· == m)) =
      (Encounter.sitesAmong path (p.walk Span.nowhere)).flatMap t.after
  | .unit, _ => rfl
  | .named _ type, h => by
      rw [FunctorParam.edit, FunctorParam.walk, FunctorParam.walk,
        ModuleType.markedAmong_edit path type h]

/-- In a module with a name, all sites live one step further down. -/
theorem ModuleBinding.markedAmong_edit (path : ModulePath) : (b : ModuleBinding π) →
    Encounter.Avoid m (b.walk Span.nowhere) →
    Encounter.markedAmong m ((b.edit t path).walk (· == m)) =
      (Encounter.sitesAmong path (b.walk Span.nowhere)).flatMap t.after
  | ⟨name, body, _, _⟩, h => by
      rw [ModuleBinding.edit, ModuleBinding.walk, ModuleBinding.walk,
        Encounter.markedAmong_inside, Encounter.sitesAmong_inside,
        ModuleExpr.markedAmong_edit (path.enter name.value) body (Encounter.avoid_inside.1 h)]

/-- In the modules of a recursive group, one after the other. -/
theorem ModuleBinding.markedAmong_editAll (path : ModulePath) : (bs : List (ModuleBinding π)) →
    Encounter.Avoid m (ModuleBinding.walkAll Span.nowhere bs) →
    Encounter.markedAmong m (ModuleBinding.walkAll (· == m) (ModuleBinding.editAll t path bs)) =
      (Encounter.sitesAmong path (ModuleBinding.walkAll Span.nowhere bs)).flatMap t.after
  | [], _ => rfl
  | b :: rest, h => by
      obtain ⟨hb, hrest⟩ := Encounter.avoid_append.1 h
      rw [ModuleBinding.editAll, ModuleBinding.walkAll, ModuleBinding.walkAll,
        Encounter.markedAmong_append, ModuleBinding.markedAmong_edit path b hb,
        ModuleBinding.markedAmong_editAll path rest hrest, Encounter.sitesAmong_append,
        List.flatMap_append]

/-- In a declared module. -/
theorem ModuleDecl.markedAmong_edit (path : ModulePath) : (d : ModuleDecl π) →
    Encounter.Avoid m (d.walk Span.nowhere) →
    Encounter.markedAmong m ((d.edit t path).walk (· == m)) =
      (Encounter.sitesAmong path (d.walk Span.nowhere)).flatMap t.after
  | ⟨name, type, _, _⟩, h => by
      rw [ModuleDecl.edit, ModuleDecl.walk, ModuleDecl.walk, Encounter.markedAmong_inside,
        Encounter.sitesAmong_inside,
        ModuleType.markedAmong_edit (path.enter name.value) type (Encounter.avoid_inside.1 h)]

theorem ModuleDecl.markedAmong_editAll (path : ModulePath) : (ds : List (ModuleDecl π)) →
    Encounter.Avoid m (ModuleDecl.walkAll Span.nowhere ds) →
    Encounter.markedAmong m (ModuleDecl.walkAll (· == m) (ModuleDecl.editAll t path ds)) =
      (Encounter.sitesAmong path (ModuleDecl.walkAll Span.nowhere ds)).flatMap t.after
  | [], _ => rfl
  | d :: rest, h => by
      obtain ⟨hd, hrest⟩ := Encounter.avoid_append.1 h
      rw [ModuleDecl.editAll, ModuleDecl.walkAll, ModuleDecl.walkAll,
        Encounter.markedAmong_append, ModuleDecl.markedAmong_edit path d hd,
        ModuleDecl.markedAmong_editAll path rest hrest, Encounter.sitesAmong_append,
        List.flatMap_append]

/-- In a declared module type; an abstract one has no items. -/
theorem ModuleTypeDecl.markedAmong_edit (path : ModulePath) : (d : ModuleTypeDecl π) →
    Encounter.Avoid m (d.walk Span.nowhere) →
    Encounter.markedAmong m ((d.edit t path).walk (· == m)) =
      (Encounter.sitesAmong path (d.walk Span.nowhere)).flatMap t.after
  | ⟨_, none, _, _⟩, _ => rfl
  | ⟨name, some type, _, _⟩, h => by
      rw [ModuleTypeDecl.edit, ModuleTypeDecl.walk, ModuleTypeDecl.walk,
        Encounter.markedAmong_inside, Encounter.sitesAmong_inside,
        ModuleType.markedAmong_edit (path.enter (some name.value)) type
          (Encounter.avoid_inside.1 h)]

end

/-! ## leaving it out again -/

mutual

/-- **Leaving out what was inserted gives the structure back**, with its expressions changed as the
edit changes them. What is inserted is at `m` (`Edit.InsertsAt`) and nothing else is (`Avoid`), so
exactly the insertions go. The paths play no part, and differ because nothing ties them together. -/
theorem StructureItem.editAll_deleting (p q s : ModulePath) : (items : List (StructureItem π)) →
    Encounter.Avoid m (StructureItem.walkAll Span.nowhere items) →
    StructureItem.editAll (.deleting m) p (StructureItem.editAll t q items) =
      StructureItem.editAll (.mapping t.expr) s items
  | [], _ => rfl
  | item :: rest, h => by
      obtain ⟨hitem, hrest⟩ := Encounter.avoid_append.1 h
      have hspan : (item.edit t q).span ≠ m := by
        obtain ⟨shape, span⟩ := item
        exact (Encounter.avoid_cons.1 hitem).1
      have hafter := ht.span_of_structureAfter q item.subject?
      rw [StructureItem.editAll, if_neg (by simp [ht.drops]), StructureItem.editAll_append,
        StructureItem.editAll, if_neg (by simpa using hspan),
        StructureItem.editAll_deleting_of_forall p hafter,
        StructureItem.editAll_deleting p q s rest hrest,
        StructureItem.edit_deleting p q s item hitem, StructureItem.subject?_edit,
        Edit.deleting_structureAfter, StructureItem.editAll, if_neg (by simp),
        Edit.mapping_structureAfter]
      rfl

/-- Inside an item, leaving out what was inserted leaves its expressions changed and nothing
else. -/
theorem StructureItem.edit_deleting (p q s : ModulePath) : (item : StructureItem π) →
    Encounter.Avoid m (item.walk Span.nowhere) →
    (item.edit t q).edit (.deleting m) p = item.edit (.mapping t.expr) s
  | ⟨shape, _⟩, h => by
      have hshape : Encounter.Avoid m (shape.walk Span.nowhere) := (Encounter.avoid_cons.1 h).2
      rw [StructureItem.edit, StructureItem.edit, StructureShape.edit_deleting p q s shape hshape,
        StructureItem.edit]

/-- Inside a form of item. Forms without items are changed in their expressions alone. -/
theorem StructureShape.edit_deleting (p q s : ModulePath) : (shape : StructureShape π) →
    Encounter.Avoid m (shape.walk Span.nowhere) →
    (shape.edit t q).edit (.deleting m) p = shape.edit (.mapping t.expr) s
  | .primitive _, _ | .types _ _, _ | .extend _, _ | .openModule _, _ | .attribute _, _
  | .extension _ _, _ | .eval _ _, _ => rfl
  | .value recursion bindings, _ => by
      rw [StructureShape.edit, StructureShape.edit, StructureShape.edit, List.map_map]
      rfl
  | .module binding, h => by
      rw [StructureShape.edit, StructureShape.edit, StructureShape.edit,
        ModuleBinding.edit_deleting p q s binding h]
  | .recModules bindings, h => by
      rw [StructureShape.edit, StructureShape.edit, StructureShape.edit,
        ModuleBinding.editAll_deleting p q s bindings h]
  | .moduleType decl, h => by
      rw [StructureShape.edit, StructureShape.edit, StructureShape.edit,
        ModuleTypeDecl.edit_deleting p q s decl h]
  | .include module _, h => by
      rw [StructureShape.edit, StructureShape.edit, StructureShape.edit,
        ModuleExpr.edit_deleting p q s module h]

/-- Leaving out what was inserted gives the signature back. -/
theorem SignatureItem.editAll_deleting (p q s : ModulePath) : (items : List (SignatureItem π)) →
    Encounter.Avoid m (SignatureItem.walkAll Span.nowhere items) →
    SignatureItem.editAll (.deleting m) p (SignatureItem.editAll t q items) =
      SignatureItem.editAll (.mapping t.expr) s items
  | [], _ => rfl
  | item :: rest, h => by
      obtain ⟨hitem, hrest⟩ := Encounter.avoid_append.1 h
      have hspan : (item.edit t q).span ≠ m := by
        obtain ⟨shape, span⟩ := item
        exact (Encounter.avoid_cons.1 hitem).1
      have hafter := ht.span_of_signatureAfter q item.subject?
      rw [SignatureItem.editAll, if_neg (by simp [ht.drops]), SignatureItem.editAll_append,
        SignatureItem.editAll, if_neg (by simpa using hspan),
        SignatureItem.editAll_deleting_of_forall p hafter,
        SignatureItem.editAll_deleting p q s rest hrest,
        SignatureItem.edit_deleting p q s item hitem, SignatureItem.subject?_edit,
        Edit.deleting_signatureAfter, SignatureItem.editAll, if_neg (by simp),
        Edit.mapping_signatureAfter]
      rfl

/-- Inside an item of a signature. -/
theorem SignatureItem.edit_deleting (p q s : ModulePath) : (item : SignatureItem π) →
    Encounter.Avoid m (item.walk Span.nowhere) →
    (item.edit t q).edit (.deleting m) p = item.edit (.mapping t.expr) s
  | ⟨shape, _⟩, h => by
      have hshape : Encounter.Avoid m (shape.walk Span.nowhere) := (Encounter.avoid_cons.1 h).2
      rw [SignatureItem.edit, SignatureItem.edit, SignatureShape.edit_deleting p q s shape hshape,
        SignatureItem.edit]

theorem SignatureShape.edit_deleting (p q s : ModulePath) : (shape : SignatureShape π) →
    Encounter.Avoid m (shape.walk Span.nowhere) →
    (shape.edit t q).edit (.deleting m) p = shape.edit (.mapping t.expr) s
  | .value _, _ | .types _ _, _ | .extend _, _ | .openModule _, _ | .attribute _, _
  | .extension _ _, _ => rfl
  | .module decl, h => by
      rw [SignatureShape.edit, SignatureShape.edit, SignatureShape.edit,
        ModuleDecl.edit_deleting p q s decl h]
  | .recModules decls, h => by
      rw [SignatureShape.edit, SignatureShape.edit, SignatureShape.edit,
        ModuleDecl.editAll_deleting p q s decls h]
  | .moduleType decl, h => by
      rw [SignatureShape.edit, SignatureShape.edit, SignatureShape.edit,
        ModuleTypeDecl.edit_deleting p q s decl h]
  | .include type _, h => by
      rw [SignatureShape.edit, SignatureShape.edit, SignatureShape.edit,
        ModuleType.edit_deleting p q s type h]

/-- In a module expression. -/
theorem ModuleExpr.edit_deleting (p q s : ModulePath) : (e : ModuleExpr π) →
    Encounter.Avoid m (e.walk Span.nowhere) →
    (e.edit t q).edit (.deleting m) p = e.edit (.mapping t.expr) s
  | ⟨shape, _, _⟩, h => by
      rw [ModuleExpr.edit, ModuleExpr.edit, ModuleExprShape.edit_deleting p q s shape h,
        ModuleExpr.edit]

/-- In a form of module expression, part by part. -/
theorem ModuleExprShape.edit_deleting (p q s : ModulePath) : (shape : ModuleExprShape π) →
    Encounter.Avoid m (shape.walk Span.nowhere) →
    (shape.edit t q).edit (.deleting m) p = shape.edit (.mapping t.expr) s
  | .ident _, _ | .extension _, _ => rfl
  | .structure items, h => by
      rw [ModuleExprShape.edit, ModuleExprShape.edit, ModuleExprShape.edit,
        StructureItem.editAll_deleting p q s items h]
  | .functor param body, h => by
      obtain ⟨hparam, hbody⟩ := Encounter.avoid_append.1 h
      rw [ModuleExprShape.edit, ModuleExprShape.edit, ModuleExprShape.edit,
        FunctorParam.edit_deleting p q s param hparam, ModuleExpr.edit_deleting p q s body hbody]
  | .apply callee arg, h => by
      obtain ⟨hcallee, harg⟩ := Encounter.avoid_append.1 h
      rw [ModuleExprShape.edit, ModuleExprShape.edit, ModuleExprShape.edit,
        ModuleExpr.edit_deleting p q s callee hcallee, ModuleExpr.edit_deleting p q s arg harg]
  | .constraint module type, h => by
      obtain ⟨hmodule, htype⟩ := Encounter.avoid_append.1 h
      rw [ModuleExprShape.edit, ModuleExprShape.edit, ModuleExprShape.edit,
        ModuleExpr.edit_deleting p q s module hmodule, ModuleType.edit_deleting p q s type htype]

/-- In a module type. -/
theorem ModuleType.edit_deleting (p q s : ModulePath) : (u : ModuleType π) →
    Encounter.Avoid m (u.walk Span.nowhere) →
    (u.edit t q).edit (.deleting m) p = u.edit (.mapping t.expr) s
  | ⟨shape, _, _⟩, h => by
      rw [ModuleType.edit, ModuleType.edit, ModuleTypeShape.edit_deleting p q s shape h,
        ModuleType.edit]

/-- In a form of module type, part by part. -/
theorem ModuleTypeShape.edit_deleting (p q s : ModulePath) : (shape : ModuleTypeShape π) →
    Encounter.Avoid m (shape.walk Span.nowhere) →
    (shape.edit t q).edit (.deleting m) p = shape.edit (.mapping t.expr) s
  | .ident _, _ | .aliased _, _ | .extension _, _ => rfl
  | .signature items, h => by
      rw [ModuleTypeShape.edit, ModuleTypeShape.edit, ModuleTypeShape.edit,
        SignatureItem.editAll_deleting p q s items h]
  | .functor param body, h => by
      obtain ⟨hparam, hbody⟩ := Encounter.avoid_append.1 h
      rw [ModuleTypeShape.edit, ModuleTypeShape.edit, ModuleTypeShape.edit,
        FunctorParam.edit_deleting p q s param hparam, ModuleType.edit_deleting p q s body hbody]

theorem FunctorParam.edit_deleting (p q s : ModulePath) : (param : FunctorParam π) →
    Encounter.Avoid m (param.walk Span.nowhere) →
    (param.edit t q).edit (.deleting m) p = param.edit (.mapping t.expr) s
  | .unit, _ => rfl
  | .named _ type, h => by
      rw [FunctorParam.edit, FunctorParam.edit, FunctorParam.edit,
        ModuleType.edit_deleting p q s type h]

/-- In a module with a name. -/
theorem ModuleBinding.edit_deleting (p q s : ModulePath) : (b : ModuleBinding π) →
    Encounter.Avoid m (b.walk Span.nowhere) →
    (b.edit t q).edit (.deleting m) p = b.edit (.mapping t.expr) s
  | ⟨name, body, _, _⟩, h => by
      rw [ModuleBinding.edit, ModuleBinding.edit, ModuleBinding.edit,
        ModuleExpr.edit_deleting (p.enter name.value) (q.enter name.value) (s.enter name.value) body
          (Encounter.avoid_inside.1 h)]

theorem ModuleBinding.editAll_deleting (p q s : ModulePath) : (bs : List (ModuleBinding π)) →
    Encounter.Avoid m (ModuleBinding.walkAll Span.nowhere bs) →
    ModuleBinding.editAll (.deleting m) p (ModuleBinding.editAll t q bs) =
      ModuleBinding.editAll (.mapping t.expr) s bs
  | [], _ => rfl
  | b :: rest, h => by
      obtain ⟨hb, hrest⟩ := Encounter.avoid_append.1 h
      rw [ModuleBinding.editAll, ModuleBinding.editAll, ModuleBinding.editAll,
        ModuleBinding.edit_deleting p q s b hb, ModuleBinding.editAll_deleting p q s rest hrest]

/-- In a declared module. -/
theorem ModuleDecl.edit_deleting (p q s : ModulePath) : (d : ModuleDecl π) →
    Encounter.Avoid m (d.walk Span.nowhere) →
    (d.edit t q).edit (.deleting m) p = d.edit (.mapping t.expr) s
  | ⟨name, type, _, _⟩, h => by
      rw [ModuleDecl.edit, ModuleDecl.edit, ModuleDecl.edit,
        ModuleType.edit_deleting (p.enter name.value) (q.enter name.value) (s.enter name.value) type
          (Encounter.avoid_inside.1 h)]

theorem ModuleDecl.editAll_deleting (p q s : ModulePath) : (ds : List (ModuleDecl π)) →
    Encounter.Avoid m (ModuleDecl.walkAll Span.nowhere ds) →
    ModuleDecl.editAll (.deleting m) p (ModuleDecl.editAll t q ds) =
      ModuleDecl.editAll (.mapping t.expr) s ds
  | [], _ => rfl
  | d :: rest, h => by
      obtain ⟨hd, hrest⟩ := Encounter.avoid_append.1 h
      rw [ModuleDecl.editAll, ModuleDecl.editAll, ModuleDecl.editAll,
        ModuleDecl.edit_deleting p q s d hd, ModuleDecl.editAll_deleting p q s rest hrest]

/-- In a declared module type; an abstract one stays as it is. -/
theorem ModuleTypeDecl.edit_deleting (p q s : ModulePath) : (d : ModuleTypeDecl π) →
    Encounter.Avoid m (d.walk Span.nowhere) →
    (d.edit t q).edit (.deleting m) p = d.edit (.mapping t.expr) s
  | ⟨_, none, _, _⟩, _ => rfl
  | ⟨name, some type, _, _⟩, h => by
      rw [ModuleTypeDecl.edit, ModuleTypeDecl.edit, ModuleTypeDecl.edit,
        ModuleType.edit_deleting (p.enter (some name.value)) (q.enter (some name.value))
          (s.enter (some name.value)) type (Encounter.avoid_inside.1 h)]

end

end InsertsAt

end DeriveKit
