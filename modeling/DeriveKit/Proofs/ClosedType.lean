import DeriveKit.Proofs.FreeVars
import DeriveKit.Text.Payload
import DeriveKit.Types.Params

/-!
# DeriveKit.Proofs.ClosedType

Quantifying a type over its free variables closes it, and does so once. Generated code for a
parametric type has a function type from what is made of each parameter; closing that type
quantifies the parameters of the declaration in their order.

* `TypeParam.arrows_eq_foldr` — the first parameter is the outermost argument;
* `TypeParam.freeVars_arrows` — the variables of such a function type;
* `TypeExpr.closing_quantifies_free_variables` — the result.
-/

namespace DeriveKit

variable {π : Type}

/-! ## closing a type -/

namespace TypeExpr

/-- A type whose variables can be told is closed over them. -/
theorem closed_of_freeVars {t : TypeExpr π} {vs : List String} (h : t.freeVars = .ok vs) :
    t.closed = .ok (.poly vs t t.span) := by
  rw [closed, h]
  rfl

/-- Nothing is free under a quantifier for all free variables. -/
theorem freeVars_poly_of_freeVars {t : TypeExpr π} {vs : List String} (h : t.freeVars = .ok vs)
    (span : Span) : (poly vs t span).freeVars = .ok [] := by
  have hvalues : (vs.map fun v => (⟨v, span⟩ : Located String)).map (·.value) = vs := by
    rw [List.map_map]
    exact List.map_id _
  have hpoly := freeVars_poly (vs.map fun v => ⟨v, span⟩) t span []
  rw [h, hvalues] at hpoly
  refine hpoly.trans (congrArg Except.ok ?_)
  rw [List.filter_eq_nil_iff]
  intro v hv
  simpa using hv

end TypeExpr

/-! ## function types over parameters -/

namespace TypeParam

/-- The names of parameters that are not wildcards. -/
def named (params : List (TypeParam π)) : List String := params.filterMap fun p => p.type.varName?

/-- The names of parameters are told one by one; a wildcard has none. -/
theorem named_cons (param : TypeParam π) (params : List (TypeParam π)) :
    named (param :: params) = param.type.varName?.toList ++ named params := by
  rw [named, named, List.filterMap_cons]
  cases param.type.varName? <;> rfl

/-- Whether a parameter is a variable or a wildcard. -/
def isLegal (param : TypeParam π) : Bool :=
  match param.type.shape with
  | .any | .var _ => true
  | _ => false

variable {params : List (TypeParam π)}

/-- A legal parameter is a variable or a wildcard (`TypeParam.isLegal`). -/
theorem name?_of_isLegal {param : TypeParam π} (h : param.isLegal) :
    param.name? = .ok param.type.varName? := by
  obtain ⟨⟨shape, span, attributes⟩, variance⟩ := param
  cases shape with
  | any | var => rfl
  | arrow | tuple | constr | object | aliased | variant | poly | package | extension =>
      exact absurd h Bool.false_ne_true

/-- The names of legal parameters can be told. -/
theorem names_of_isLegal (h : ∀ p ∈ params, p.isLegal) : names params = .ok (named params) := by
  induction params with
  | nil => rfl
  | cons param params ih =>
      obtain ⟨hparam, hparams⟩ := List.forall_mem_cons.1 h
      rw [names, name?_of_isLegal hparam, ih hparams, named_cons]
      cases param.type.varName? <;> rfl

/-- Going over the parameters from the first is going over their names. -/
theorem foldNames_of_isLegal (h : ∀ p ∈ params, p.isLegal) {β : Type} (f : β → String → β)
    (start : β) : foldNames f start params = .ok ((named params).foldl f start) := by
  rw [foldNames, names_of_isLegal h]
  rfl

/-- And so from the last. -/
theorem foldNamesBack_of_isLegal (h : ∀ p ∈ params, p.isLegal) {β : Type} (f : String → β → β)
    (start : β) : foldNamesBack f start params = .ok ((named params).foldr f start) := by
  have hnamed : named params.reverse = (named params).reverse := by
    rw [named, named, List.filterMap_reverse]
  rw [foldNamesBack, foldNames_of_isLegal fun p hp => h p (List.mem_reverse.1 hp), hnamed,
    List.foldl_reverse]

/-- The first parameter is the outermost argument. -/
theorem arrows_eq_foldr (h : ∀ p ∈ params, p.isLegal) (f : TypeExpr π → TypeExpr π)
    (t : TypeExpr π) :
    arrows f params t = .ok ((named params).foldr
      (fun name result => .arrow (f (.var name t.span)) result t.span) t) :=
  foldNamesBack_of_isLegal h _ t

/-- The variables of a parameter are its name, if it has one. -/
theorem freeVars_of_isLegal {param : TypeParam π} (h : param.isLegal) :
    param.type.freeVars = .ok param.type.varName?.toList := by
  obtain ⟨⟨shape, span, attributes⟩, variance⟩ := param
  cases shape with
  | any | var => rfl
  | arrow | tuple | constr | object | aliased | variant | poly | package | extension =>
      exact absurd h Bool.false_ne_true

/-- A legal parameter has itself as its only variable, if it is one. -/
theorem mapM_freeVars_of_isLegal (h : ∀ p ∈ params, p.isLegal) :
    (params.map (·.type)).mapM TypeExpr.freeVars =
      .ok (params.map fun p => p.type.varName?.toList) := by
  induction params with
  | nil => rfl
  | cons param params ih =>
      obtain ⟨hparam, hparams⟩ := List.forall_mem_cons.1 h
      rw [List.map_cons, List.mapM_cons, freeVars_of_isLegal hparam, ih hparams]
      rfl

/-- The variables of a declared type are its parameters. -/
theorem freeVars_self (decl : TypeDecl π) (h : ∀ p ∈ decl.params, p.isLegal) :
    decl.self.freeVars = .ok (named decl.params).eraseDups := by
  have hflatten : (decl.params.map fun p => p.type.varName?.toList).flatten =
    named decl.params := by
    rw [named, List.filterMap_eq_flatMap_toList, List.flatMap_def]
  rw [TypeExpr.freeVars_of_parts (t := decl.self) rfl, mapM_freeVars_of_isLegal h, ← hflatten]
  rfl

/-- The variables of a function type over names come before those of its result. -/
theorem freeVars_arrows {f : TypeExpr π → TypeExpr π} {span : Span}
    (hf : ∀ name, (f (.var name span)).freeVars = .ok [name]) {t : TypeExpr π} {vs : List String}
    (ht : t.freeVars = .ok vs.eraseDups) (ns : List String) :
    (ns.foldr (fun name result => TypeExpr.arrow (f (.var name span)) result span) t).freeVars =
      .ok (ns ++ vs).eraseDups := by
  induction ns with
  | nil => exact ht
  | cons n ns ih =>
      have hparts := TypeExpr.freeVars_of_parts (t := .arrow (f (.var n span))
        (ns.foldr (fun name result => TypeExpr.arrow (f (.var name span)) result span) t) span) rfl
      have htwice : ([n] ++ (ns ++ vs).eraseDups).eraseDups = (n :: (ns ++ vs)).eraseDups := by
        have hflatten := eraseDups_flatten [[n], ns ++ vs]
        simpa [List.eraseDups_cons] using hflatten
      rw [List.mapM_cons, List.mapM_cons, hf, ih] at hparts
      refine hparts.trans (congrArg Except.ok ?_)
      rw [List.cons_append, ← htwice]
      simp

end TypeParam

/-- **Closing a type quantifies its free variables, once.** The closed type is the type under a
quantifier for its free variables, each once, and has no free variables; so closing it again only
adds a quantifier without variables, which does not show in the text. Closing the function type from
what `f` makes of each parameter of a declaration, the first one outermost, to the declared type
quantifies the named parameters in their order, each once, if `f` keeps the variables of a
variable. -/
theorem TypeExpr.closing_quantifies_free_variables :
    (∀ t : TypeExpr Payload, t.isPlain → ∃ vs u, t.freeVars = .ok vs ∧ vs.Nodup ∧
      t.closed = .ok u ∧ u = ⟨.poly (vs.map fun v => ⟨v, t.span⟩) t, t.span, []⟩ ∧
      u.freeVars = .ok [] ∧ u.closed = .ok ⟨.poly [] u, u.span, []⟩ ∧
      (⟨.poly [] u, u.span, []⟩ : TypeExpr Payload).text = u.text) ∧
    ∀ (decl : TypeDecl Payload) (f : TypeExpr Payload → TypeExpr Payload),
      (∀ p ∈ decl.params, p.isLegal) →
      (∀ name span, (f ⟨.var name, span, []⟩).freeVars = .ok [name]) →
      ∃ t, TypeParam.arrows f decl.params decl.self = .ok t ∧
        t = (TypeParam.named decl.params).foldr
          (fun x result =>
            ⟨.arrow .positional (f ⟨.var x, decl.span, []⟩) result, decl.span, []⟩)
          ⟨.constr ⟨⟨[], decl.name.value⟩, decl.span⟩ (decl.params.map (·.type)), decl.span, []⟩ ∧
        t.closed = .ok ⟨.poly ((TypeParam.named decl.params).eraseDups.map fun v => ⟨v, t.span⟩) t,
          t.span, []⟩ := by
  refine ⟨fun t h => ?_, fun decl f hparams hf => ?_⟩
  · have hvars := freeVars_of_isPlain h
    have hnone := freeVars_poly_of_freeVars hvars t.span
    exact ⟨_, _, hvars, nodup_eraseDups _, closed_of_freeVars hvars, rfl, hnone,
      closed_of_freeVars hnone, rfl⟩
  · have harrows := TypeParam.freeVars_arrows (hf · decl.self.span)
      (TypeParam.freeVars_self decl hparams) (TypeParam.named decl.params)
    have htwice : (TypeParam.named decl.params ++ TypeParam.named decl.params).eraseDups =
        (TypeParam.named decl.params).eraseDups := by
      have hnew : (TypeParam.named decl.params).eraseDups.filter
          (fun v => !(TypeParam.named decl.params).contains v) = [] := by
        rw [List.filter_eq_nil_iff]
        intro v hv
        simpa using List.mem_eraseDups.1 hv
      rw [eraseDups_append_eq_filter, hnew, List.append_nil]
    rw [htwice] at harrows
    exact ⟨_, TypeParam.arrows_eq_foldr hparams f decl.self, rfl, closed_of_freeVars harrows⟩

/-- The type `'a -> 'a * 'b`, and a declaration with a wildcard and a repeated parameter. -/
theorem TypeExpr.closing_quantifies_free_variables_repeated :
    let var (name : String) : TypeExpr Payload := ⟨.var name, .generated, []⟩
    let t : TypeExpr Payload :=
      ⟨.arrow .positional (var "a") ⟨.tuple [var "a", var "b"], .generated, []⟩, ⟨1, 9⟩, []⟩
    let f (t : TypeExpr Payload) : TypeExpr Payload :=
      ⟨.arrow .positional t ⟨.constr ⟨⟨[], "string"⟩, t.span⟩ [], t.span, []⟩, t.span, []⟩
    let decl : TypeDecl Payload :=
      ⟨.generated "t", [⟨var "b", .invariant⟩, ⟨⟨.any, .generated, []⟩, .invariant⟩,
        ⟨var "a", .covariant⟩, ⟨var "b", .invariant⟩], .abstract, false, none, [], .generated⟩
    (t.isPlain ∧ ∃ u, t.closed = .ok u ∧
      u = ⟨.poly [⟨"a", ⟨1, 9⟩⟩, ⟨"b", ⟨1, 9⟩⟩] t, ⟨1, 9⟩, []⟩ ∧ u.freeVars = .ok [] ∧
      u.closed = .ok ⟨.poly [] u, ⟨1, 9⟩, []⟩ ∧
      (⟨.poly [] u, ⟨1, 9⟩, []⟩ : TypeExpr Payload).text = u.text) ∧
    (∀ p ∈ decl.params, p.isLegal) ∧
    (∀ name span, (f ⟨.var name, span, []⟩).freeVars = .ok [name]) ∧
    ∃ t, TypeParam.arrows f decl.params decl.self = .ok t ∧
      t.closed = .ok ⟨.poly [⟨"b", t.span⟩, ⟨"a", t.span⟩] t, t.span, []⟩ := by
  intro var t f decl
  have hparams : ∀ p ∈ decl.params, p.isLegal := by simp [decl, var, TypeParam.isLegal]
  have hf : ∀ name span, (f ⟨.var name, span, []⟩).freeVars = .ok [name] := fun _ _ => rfl
  have hvars : t.freeVars = .ok ["a", "b"] := rfl
  obtain ⟨vs, u, hfree, -, hclosed, rfl, hnone, hagain, htext⟩ :=
    closing_quantifies_free_variables.1 t rfl
  obtain rfl := Except.ok.inj (hvars.symm.trans hfree)
  obtain ⟨t, harrows, -, hquantified⟩ := closing_quantifies_free_variables.2 decl f hparams hf
  exact ⟨⟨rfl, _, hclosed, rfl, hnone, hagain, htext⟩, hparams, hf, t, harrows, hquantified⟩

end DeriveKit
