import DeriveKit.Proofs.ModuleForms

/-!
# DeriveKit.Proofs.ModuleText

The text of a module expression says which module expression it is, up to regrouping.

* `ModuleExpr.render_regrouped` — regrouping a module expression does not change its text;
* `ModuleExpr.regrouped_erase` — nor does it change the module expression, if no functor is applied;
* `ModuleExpr.readsGrouped` — what is read off its text is the regrouped module expression, but for
  where it was written;
* `modules_are_unambiguous_up_to_grouping` — the result;
* `applied_functor_is_ambiguous` — why regrouping is needed.
-/

namespace DeriveKit

variable {π ρ : Type} (pay : π → String) (E : Erasure π ρ)

/-! ## regrouping keeps the text -/

/-- An argument is written behind the functor, wherever it is grouped to. This is where the text
loses what it belongs to. -/
theorem ModuleExpr.render_group (m arg : ModuleExpr π) (span : Span)
    (attributes : List (Attribute π)) :
    (m.group arg span attributes).render pay =
      m.render pay ++ "(" ++ arg.render pay ++ ")" ++ Attribute.renderAll pay "@" attributes := by
  fun_induction ModuleExpr.group m arg span attributes with
  | case1 param body place arg span attributes ih =>
      have hnone : Attribute.renderAll pay "@" [] = "" := rfl
      simp only [ModuleExpr.render, ModuleExprShape.render, hnone, String.append_empty] at ih ⊢
      rw [ih]
      simp only [String.append_assoc]
  | case2 => rfl

mutual

/-- **Regrouping does not change the text**, by recursion on the tree. -/
theorem ModuleExpr.render_regrouped : ∀ m : ModuleExpr π, m.regrouped.render pay = m.render pay
  | ⟨.apply functor arg, span, attributes⟩ => by
      rw [ModuleExpr.regrouped, ModuleExpr.render_group, ModuleExpr.render_regrouped functor,
        ModuleExpr.render_regrouped arg]
      rfl
  | ⟨.structure items, span, attributes⟩ => by
      rw [ModuleExpr.regrouped, ModuleExpr.render, ModuleExprShape.render,
        StructureItem.render_regroupedAll items]
      rfl
  | ⟨.functor param body, span, attributes⟩ => by
      rw [ModuleExpr.regrouped, ModuleExpr.render, ModuleExprShape.render,
        ModuleExpr.render_regrouped body]
      rfl
  | ⟨.constraint module type, span, attributes⟩ => by
      rw [ModuleExpr.regrouped, ModuleExpr.render, ModuleExprShape.render,
        ModuleExpr.render_regrouped module]
      rfl
  | ⟨.ident _, _, _⟩ | ⟨.extension _, _, _⟩ => rfl

/-- Regrouping inside an item does not change its text. -/
theorem StructureItem.render_regrouped : ∀ item : StructureItem π,
    item.regrouped.render pay = item.render pay
  | ⟨.module binding, span⟩ => by
      rw [StructureItem.regrouped, StructureItem.render, StructureShape.render,
        ModuleBinding.render_regrouped binding]
      rfl
  | ⟨.recModules bindings, span⟩ => by
      rw [StructureItem.regrouped, StructureItem.render, StructureShape.render,
        ModuleBinding.render_regroupedAll bindings]
      rfl
  | ⟨.include module attributes, span⟩ => by
      rw [StructureItem.regrouped, StructureItem.render, StructureShape.render,
        ModuleExpr.render_regrouped module]
      rfl
  | ⟨.eval .., _⟩ | ⟨.value .., _⟩ | ⟨.primitive _, _⟩ | ⟨.types .., _⟩ | ⟨.extend _, _⟩
  | ⟨.moduleType _, _⟩ | ⟨.openModule _, _⟩ | ⟨.attribute _, _⟩ | ⟨.extension .., _⟩ => rfl

/-- Regrouping the items of a structure does not change their texts. -/
theorem StructureItem.render_regroupedAll : ∀ items : List (StructureItem π),
    StructureItem.renderAll pay (StructureItem.regroupedAll items) =
      StructureItem.renderAll pay items
  | [] => rfl
  | item :: rest => by
      rw [StructureItem.regroupedAll, StructureItem.renderAll, StructureItem.render_regrouped item,
        StructureItem.render_regroupedAll rest]
      rfl

/-- Regrouping a module with a name does not change its text. -/
theorem ModuleBinding.render_regrouped : ∀ b : ModuleBinding π,
    b.regrouped.render pay = b.render pay
  | ⟨name, body, attributes, span⟩ => by
      rw [ModuleBinding.regrouped, ModuleBinding.render, ModuleExpr.render_regrouped body]
      rfl

/-- Regrouping the modules of a recursive group does not change their texts. -/
theorem ModuleBinding.render_regroupedAll : ∀ bs : List (ModuleBinding π),
    ModuleBinding.renderAll pay (ModuleBinding.regroupedAll bs) = ModuleBinding.renderAll pay bs
  | [] => rfl
  | b :: rest => by
      rw [ModuleBinding.regroupedAll, ModuleBinding.renderAll, ModuleBinding.render_regrouped b,
        ModuleBinding.render_regroupedAll rest]
      rfl

end

mutual

/-- Where no functor is applied, there is nothing to regroup. -/
theorem ModuleExpr.regrouped_erase : ∀ m : ModuleExpr π, m.appliesFunctor = false →
    (m.erase E).regrouped = m.erase E
  | ⟨.apply functor arg, _, _⟩, h => by
      simp only [ModuleExpr.appliesFunctor, ModuleExprShape.appliesFunctor,
        Bool.or_eq_false_iff] at h
      obtain ⟨hfunctor, hinside, harg⟩ := h
      rw [ModuleExpr.erase, ModuleExprShape.erase, ModuleExpr.regrouped,
        ModuleExpr.regrouped_erase functor hinside, ModuleExpr.regrouped_erase arg harg]
      exact ModuleExpr.group_eq_apply ((ModuleExpr.isFunctor_erase E functor).trans hfunctor) _ _ _
  | ⟨.structure items, _, _⟩, h => by
      rw [ModuleExpr.erase, ModuleExprShape.erase, ModuleExpr.regrouped,
        StructureItem.regroupedAll_erase items h]
  | ⟨.functor param body, _, _⟩, h => by
      rw [ModuleExpr.erase, ModuleExprShape.erase, ModuleExpr.regrouped,
        ModuleExpr.regrouped_erase body h]
  | ⟨.constraint module type, _, _⟩, h => by
      rw [ModuleExpr.erase, ModuleExprShape.erase, ModuleExpr.regrouped,
        ModuleExpr.regrouped_erase module h]
  | ⟨.ident _, _, _⟩, _ | ⟨.extension _, _, _⟩, _ => rfl

/-- Where no functor is applied directly, regrouping changes nothing inside an item. -/
theorem StructureItem.regrouped_erase : ∀ item : StructureItem π, item.appliesFunctor = false →
    (item.erase E).regrouped = item.erase E
  | ⟨.module binding, _⟩, h => by
      rw [StructureItem.erase, StructureShape.erase, StructureItem.regrouped,
        ModuleBinding.regrouped_erase binding h]
  | ⟨.recModules bindings, _⟩, h => by
      rw [StructureItem.erase, StructureShape.erase, StructureItem.regrouped,
        ModuleBinding.regroupedAll_erase bindings h]
  | ⟨.include module _, _⟩, h => by
      rw [StructureItem.erase, StructureShape.erase, StructureItem.regrouped,
        ModuleExpr.regrouped_erase module h]
  | ⟨.eval .., _⟩, _ | ⟨.value .., _⟩, _ | ⟨.primitive _, _⟩, _ | ⟨.types .., _⟩, _
  | ⟨.extend _, _⟩, _ | ⟨.moduleType _, _⟩, _ | ⟨.openModule _, _⟩, _ | ⟨.attribute _, _⟩, _
  | ⟨.extension .., _⟩, _ => rfl

/-- Nor does it change the items of a structure. -/
theorem StructureItem.regroupedAll_erase : ∀ items : List (StructureItem π),
    StructureItem.anyAppliesFunctor items = false →
    StructureItem.regroupedAll (StructureItem.eraseAll E items) = StructureItem.eraseAll E items
  | [], _ => rfl
  | item :: rest, h => by
      obtain ⟨hitem, hrest⟩ := Bool.or_eq_false_iff.1 h
      rw [StructureItem.eraseAll, StructureItem.regroupedAll,
        StructureItem.regrouped_erase item hitem, StructureItem.regroupedAll_erase rest hrest]

/-- Nor does it change a module with a name. -/
theorem ModuleBinding.regrouped_erase : ∀ b : ModuleBinding π, b.appliesFunctor = false →
    (b.erase E).regrouped = b.erase E
  | ⟨_, body, _, _⟩, h => by
      rw [ModuleBinding.erase, ModuleBinding.regrouped, ModuleExpr.regrouped_erase body h]

/-- Nor does it change the modules of a recursive group. -/
theorem ModuleBinding.regroupedAll_erase : ∀ bs : List (ModuleBinding π),
    ModuleBinding.anyAppliesFunctor bs = false →
    ModuleBinding.regroupedAll (ModuleBinding.eraseAll E bs) = ModuleBinding.eraseAll E bs
  | [], _ => rfl
  | b :: rest, h => by
      obtain ⟨hb, hrest⟩ := Bool.or_eq_false_iff.1 h
      rw [ModuleBinding.eraseAll, ModuleBinding.regroupedAll, ModuleBinding.regrouped_erase b hb,
        ModuleBinding.regroupedAll_erase rest hrest]

end

/-! ## module types -/

mutual

/-- The text of a module type is read back. -/
theorem ModuleType.reads : ∀ t : ModuleType π, t.isLegible →
    ModuleType.ReadsType (t.render pay) (t.erase E)
  | ⟨shape, _, []⟩, h => by
      have hshape := ModuleTypeShape.reads shape h
      rwa [← String.append_empty (s := shape.render pay)] at hshape
  | ⟨_, _, _ :: _⟩, h => absurd h Bool.false_ne_true

/-- Each form of module type is read as itself. Functors are no problem here, since module types are
not applied. -/
theorem ModuleTypeShape.reads : ∀ shape : ModuleTypeShape π, shape.isLegible →
    ModuleType.ReadsType (shape.render pay) (ModuleType.made (shape.erase E))
  | .ident _, h => ModuleType.readsType_ident h
  | .signature items, h => by
      obtain ⟨ds, hds, htexts, hitems⟩ := SignatureItem.exists_decls items h
      rw [ModuleTypeShape.render, ModuleTypeShape.erase, htexts, hitems]
      exact ModuleType.readsType_signature hds
  | .functor param body, h => by
      rw [ModuleTypeShape.isLegible, Bool.and_eq_true] at h
      exact ModuleType.readsType_functor (FunctorParam.reads param h.1) (ModuleType.reads body h.2)
  | .aliased _, h | .extension _, h => absurd h Bool.false_ne_true

/-- And so is a parameter. -/
theorem FunctorParam.reads : ∀ param : FunctorParam π, param.isLegible →
    ModuleType.ReadsParam (param.render pay) (param.erase E)
  | .unit, _ => ModuleType.readsParam_unit
  | .named name type, h => by
      rw [FunctorParam.isLegible, Bool.and_eq_true] at h
      exact ModuleType.readsParam_named h.1 (ModuleType.reads type h.2)

/-- Items that declare modules are given by names and types, of which the texts are read back. -/
theorem SignatureItem.exists_decls : ∀ items : List (SignatureItem π),
    SignatureItem.allLegible items →
    ∃ ds : List (Located (Option String) × String × ModuleType ρ),
      (∀ d ∈ ds, isModuleName d.1 ∧ ModuleType.ReadsType d.2.1 d.2.2) ∧
      SignatureItem.renderAll pay items =
        ds.map (fun d => "module " ++ (moduleNameText d.1 ++ " : " ++ d.2.1)) ∧
      SignatureItem.eraseAll E items = ds.map fun d => ModuleType.declared d.1.erase d.2.2
  | [], _ => ⟨[], by simp, rfl, rfl⟩
  | ⟨.module ⟨name, type, attributes, _⟩, _⟩ :: rest, h => by
      simp only [SignatureItem.allLegible, SignatureItem.isLegible, SignatureShape.isLegible,
        ModuleDecl.isLegible, Bool.and_eq_true] at h
      obtain ⟨⟨⟨hattributes, hname⟩, htype⟩, hrest⟩ := h
      obtain rfl := List.isEmpty_iff.1 hattributes
      obtain ⟨ds, hds, htexts, hitems⟩ := SignatureItem.exists_decls rest hrest
      refine ⟨(name, type.render pay, type.erase E) :: ds, ?_, ?_, ?_⟩
      · exact List.forall_mem_cons.2 ⟨⟨hname, ModuleType.reads type htype⟩, hds⟩
      · rw [SignatureItem.renderAll, htexts, List.map_cons, SignatureItem.render,
          SignatureShape.render, ModuleDecl.render]
        exact congrArg (fun s => ("module " ++ s) :: _) String.append_empty
      · rw [SignatureItem.eraseAll, hitems, List.map_cons]
        rfl
  | ⟨.value _, _⟩ :: _, h | ⟨.types .., _⟩ :: _, h | ⟨.extend _, _⟩ :: _, h
  | ⟨.recModules _, _⟩ :: _, h | ⟨.moduleType _, _⟩ :: _, h | ⟨.openModule _, _⟩ :: _, h
  | ⟨.include .., _⟩ :: _, h | ⟨.attribute _, _⟩ :: _, h | ⟨.extension .., _⟩ :: _, h =>
      absurd h Bool.false_ne_true

end

/-! ## module expressions -/

mutual

/-- The text of a module expression is read as the regrouped one. -/
theorem ModuleExpr.readsGrouped : ∀ m : ModuleExpr π, m.isLegible →
    ModuleExpr.ReadsGrouped (m.render pay) (m.erase E).regrouped
  | ⟨shape, _, []⟩, h => by
      have hshape := ModuleExprShape.readsGrouped shape h
      rwa [← String.append_empty (s := shape.render pay)] at hshape
  | ⟨_, _, _ :: _⟩, h => absurd h Bool.false_ne_true

/-- Each form of module expression is read as itself once regrouped. -/
theorem ModuleExprShape.readsGrouped : ∀ shape : ModuleExprShape π, shape.isLegible →
    ModuleExpr.ReadsGrouped (shape.render pay) (ModuleExpr.made (shape.erase E)).regrouped
  | .ident _, h => (ModuleExpr.readsHead_ident h).grouped rfl
  | .structure items, h => by
      obtain ⟨bs, hbs, htexts, hitems⟩ := StructureItem.exists_bindings items h
      rw [ModuleExprShape.render, ModuleExprShape.erase, ModuleExpr.made,
        ModuleExpr.regrouped, htexts, hitems]
      exact (ModuleExpr.readsHead_structure hbs).grouped rfl
  | .functor param body, h => by
      rw [ModuleExprShape.isLegible, Bool.and_eq_true] at h
      rw [ModuleExprShape.erase, ModuleExpr.made, ModuleExpr.regrouped]
      exact .functor (FunctorParam.reads pay E param h.1) (ModuleExpr.readsGrouped body h.2)
  | .apply functor arg, h => by
      rw [ModuleExprShape.isLegible, Bool.and_eq_true] at h
      rw [ModuleExprShape.erase, ModuleExpr.made, ModuleExpr.regrouped]
      exact (ModuleExpr.readsGrouped functor h.1).group (ModuleExpr.readsGrouped arg h.2).module
  | .constraint module type, h => by
      rw [ModuleExprShape.isLegible, Bool.and_eq_true] at h
      rw [ModuleExprShape.erase, ModuleExpr.made, ModuleExpr.regrouped]
      exact (ModuleExpr.readsHead_constraint (ModuleExpr.readsGrouped module h.1).module
        (ModuleType.reads pay E type h.2)).grouped rfl
  | .extension _, h => absurd h Bool.false_ne_true

/-- Items that bind modules are given by names and modules, of which the texts are read back. -/
theorem StructureItem.exists_bindings : ∀ items : List (StructureItem π),
    StructureItem.allLegible items →
    ∃ bs : List (Located (Option String) × String × ModuleExpr ρ),
      (∀ b ∈ bs, isModuleName b.1 ∧ ModuleExpr.ReadsModule b.2.1 b.2.2) ∧
      StructureItem.renderAll pay items =
        bs.map (fun b => "module " ++ (moduleNameText b.1 ++ " = " ++ b.2.1)) ∧
      StructureItem.regroupedAll (StructureItem.eraseAll E items) =
        bs.map fun b => ModuleExpr.bound b.1.erase b.2.2
  | [], _ => ⟨[], by simp, rfl, rfl⟩
  | ⟨.module ⟨name, body, attributes, _⟩, _⟩ :: rest, h => by
      simp only [StructureItem.allLegible, StructureItem.isLegible, StructureShape.isLegible,
        ModuleBinding.isLegible, Bool.and_eq_true] at h
      obtain ⟨⟨⟨hattributes, hname⟩, hbody⟩, hrest⟩ := h
      obtain rfl := List.isEmpty_iff.1 hattributes
      obtain ⟨bs, hbs, htexts, hitems⟩ := StructureItem.exists_bindings rest hrest
      refine ⟨(name, body.render pay, (body.erase E).regrouped) :: bs, ?_, ?_, ?_⟩
      · exact List.forall_mem_cons.2 ⟨⟨hname, (ModuleExpr.readsGrouped body hbody).module⟩, hbs⟩
      · rw [StructureItem.renderAll, htexts, List.map_cons, StructureItem.render,
          StructureShape.render, ModuleBinding.render]
        exact congrArg (fun s => ("module " ++ s) :: _) String.append_empty
      · rw [StructureItem.eraseAll, StructureItem.regroupedAll, hitems, List.map_cons]
        rfl
  | ⟨.eval .., _⟩ :: _, h | ⟨.value .., _⟩ :: _, h | ⟨.primitive _, _⟩ :: _, h
  | ⟨.types .., _⟩ :: _, h | ⟨.extend _, _⟩ :: _, h | ⟨.recModules _, _⟩ :: _, h
  | ⟨.moduleType _, _⟩ :: _, h | ⟨.openModule _, _⟩ :: _, h | ⟨.include .., _⟩ :: _, h
  | ⟨.attribute _, _⟩ :: _, h | ⟨.extension .., _⟩ :: _, h => absurd h Bool.false_ne_true

end

/-- The text of a legible module expression is read as the regrouped one, but for where it was
written. -/
theorem ModuleExpr.ofText_text {m : ModuleExpr Payload} (h : m.isLegible) :
    ModuleExpr.ofText m.text = some m.unplaced.regrouped := by
  have hread : ModuleExpr.read (m.text.length + 1) m.text.toList =
      some (m.unplaced.regrouped, []) := by
    have hread := (ModuleExpr.readsGrouped Payload.text .places m h).module _
      (Nat.lt_succ_self _) [] .nil
    rwa [List.append_nil] at hread
  rw [ModuleExpr.ofText, hread]

/-- **The text of a module expression says which one it is, up to grouping.** The text of a legible
module expression is read back, but for where it was written and for whether an argument belongs to
a functor or to the body of the functor, which does not show in the text. So two legible module
expressions with one text are equal up to their places and the regrouping; and they are equal up to
their places if no functor is applied in them. -/
theorem modules_are_unambiguous_up_to_grouping {m n : ModuleExpr Payload} (hm : m.isLegible)
    (hn : n.isLegible) :
    ModuleExpr.ofText m.text = some m.unplaced.regrouped ∧ m.regrouped.text = m.text ∧
      (m.text = n.text → m.unplaced.regrouped = n.unplaced.regrouped) ∧
      (m.appliesFunctor = false → n.appliesFunctor = false → m.text = n.text →
        m.unplaced = n.unplaced) := by
  have hregrouped : m.text = n.text → m.unplaced.regrouped = n.unplaced.regrouped := by
    intro htext
    apply Option.some.inj
    rw [← ModuleExpr.ofText_text hm, htext, ModuleExpr.ofText_text hn]
  refine ⟨ModuleExpr.ofText_text hm, ModuleExpr.render_regrouped Payload.text m, hregrouped, ?_⟩
  intro hmplain hnplain htext
  calc m.unplaced = m.unplaced.regrouped := (ModuleExpr.regrouped_erase .places m hmplain).symm
    _ = n.unplaced.regrouped := hregrouped htext
    _ = n.unplaced := ModuleExpr.regrouped_erase .places n hnplain

/-- A functor with a body `M`, and an argument `N` for the functor or for its body, at two
places. -/
theorem modules_are_unambiguous_up_to_grouping_applied :
    let param : FunctorParam Payload :=
      .named ⟨some "X", ⟨8, 9⟩⟩ (.ident (.simple "S") ⟨12, 13⟩)
    let body := ModuleExpr.ident (.simple "M") ⟨18, 19⟩
    let arg := ModuleExpr.ident (.simple "N") ⟨20, 21⟩
    let applied : ModuleExpr Payload :=
      ⟨.apply ⟨.functor param body, ⟨0, 19⟩, []⟩ arg, ⟨0, 22⟩, []⟩
    let inside : ModuleExpr Payload :=
      ⟨.functor param ⟨.apply body arg, ⟨18, 22⟩, []⟩, ⟨0, 22⟩, []⟩
    let moved : ModuleExpr Payload :=
      ⟨.functor param ⟨.apply body arg, ⟨48, 52⟩, []⟩, ⟨30, 52⟩, []⟩
    applied.isLegible ∧ ModuleExpr.ofText applied.text = some applied.unplaced.regrouped ∧
      inside.isLegible ∧ applied.text = inside.text ∧
        applied.unplaced.regrouped = inside.unplaced.regrouped ∧
      moved.isLegible ∧ inside.appliesFunctor = false ∧ moved.appliesFunctor = false ∧
        inside.text = moved.text ∧ inside.unplaced = moved.unplaced := by
  intro param body arg applied inside moved
  have happlied : applied.isLegible := by decide +kernel
  have hinside : inside.isLegible := by decide +kernel
  have hmoved : moved.isLegible := by decide +kernel
  obtain ⟨hread, -, hregrouped, -⟩ := modules_are_unambiguous_up_to_grouping happlied hinside
  obtain ⟨-, -, -, hplain⟩ := modules_are_unambiguous_up_to_grouping hinside hmoved
  exact ⟨happlied, hread, hinside, rfl, hregrouped rfl, hmoved, rfl, rfl, rfl, hplain rfl rfl rfl⟩

/-- A functor that is applied and a functor whose body is applied have one text. -/
theorem applied_functor_is_ambiguous :
    ∃ m n : ModuleExpr Payload, m.isLegible ∧ n.isLegible ∧
      m.text = "functor (X : S) -> M(N)" ∧ n.text = "functor (X : S) -> M(N)" ∧
        m.unplaced ≠ n.unplaced := by
  let param : FunctorParam Payload :=
    .named ⟨some "X", .generated⟩ (.ident (.simple "S") .generated)
  let body : ModuleExpr Payload := .ident (.simple "M") .generated
  let arg : ModuleExpr Payload := .ident (.simple "N") .generated
  let applied : ModuleExpr Payload := .made (.apply (.made (.functor param body)) arg)
  let inside : ModuleExpr Payload := .made (.functor param (.made (.apply body arg)))
  have hne : applied.unplaced ≠ inside.unplaced := fun h =>
    absurd (congrArg ModuleExpr.isFunctor h) Bool.false_ne_true
  exact ⟨applied, inside, by decide +kernel, by decide +kernel, rfl, rfl, hne⟩

end DeriveKit
