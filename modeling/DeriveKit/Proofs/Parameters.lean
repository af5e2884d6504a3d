import DeriveKit.Proofs.Beta
import DeriveKit.Proofs.ClosedType

/-!
# DeriveKit.Proofs.Parameters

Functions of the parameters of a declaration or of an extension, applications to them and function
types over them all go through the named parameters in one order, so they fit together.

* `TypeParam.names_of_find?` — a parameter that is neither a variable nor a wildcard is an error;
* `TypeParam.abstracted_eq`, `applied_eq` — the code that is written;
* `TypeParam.parameters_fit_together` — the result.
-/

namespace DeriveKit

variable {π : Type}

/-! ## arity -/

/-- How many arguments without labels an expression visibly takes, one function after the other. -/
def Expr.arity : Expr π → Nat
  | ⟨.lambda .positional none _ body, _, _⟩ => body.arity + 1
  | _ => 0

/-- How many arguments without labels a type visibly has, one arrow after the other. -/
def TypeExpr.arity : TypeExpr π → Nat
  | ⟨.arrow .positional _ codomain, _, _⟩ => codomain.arity + 1
  | _ => 0

/-- Each parameter makes a function of one more argument. -/
theorem Expr.arity_foldr_lambda (param : String → Pattern π) (names : List String) (e : Expr π)
    (span : Span) :
    (names.foldr (fun x body => .lambda (param x) body span) e).arity = names.length + e.arity := by
  induction names with
  | nil => rw [List.foldr_nil, List.length_nil, Nat.zero_add]
  | cons x names ih =>
      rw [List.foldr_cons, lambda, bare, arity, ih, List.length_cons]
      omega

/-- So does each argument of a function type. -/
theorem TypeExpr.arity_foldr_arrow (domain : String → TypeExpr π) (names : List String)
    (t : TypeExpr π) (span : Span) :
    (names.foldr (fun x result => .arrow (domain x) result span) t).arity =
      names.length + t.arity := by
  induction names with
  | nil => rw [List.foldr_nil, List.length_nil, Nat.zero_add]
  | cons x names ih =>
      rw [List.foldr_cons, arrow, bare, arity, ih, List.length_cons]
      omega

/-- An application to at least one argument is a node of its own. -/
theorem Expr.apply_map_eq (e : Expr π) (span : Span) (arg : String → Expr π) {names : List String}
    (h : names ≠ []) :
    Expr.apply e (names.map arg) span =
      ⟨.apply e (names.map fun x => (.positional, arg x)), span, []⟩ := by
  obtain ⟨x, names, rfl⟩ := List.exists_cons_of_ne_nil h
  rw [List.map_cons, List.map_cons]
  show (⟨.apply e ((.positional, arg x) :: (names.map arg).map _), span, []⟩ : Expr π) = _
  rw [List.map_map]
  rfl

namespace TypeParam

variable {params : List (TypeParam π)}

/-! ## parameters that cannot be declared -/

/-- The first parameter that is neither a variable nor a wildcard is the error. -/
theorem names_of_find? {p : TypeParam π} (h : params.find? (fun p => !p.isLegal) = some p) :
    names params = .error p.type := by
  induction params with
  | nil =>
      rw [List.find?_nil] at h
      exact absurd h (Option.some_ne_none p).symm
  | cons param params ih =>
      by_cases hlegal : param.isLegal
      · rw [List.find?_cons_of_neg (by rw [hlegal]; decide)] at h
        rw [names, name?_of_isLegal hlegal, ih h]
        cases param.type.varName? <;> rfl
      · rw [List.find?_cons_of_pos (by rwa [Bool.not_eq_true', ← Bool.not_eq_true])] at h
        obtain rfl := Option.some.inj h
        obtain ⟨⟨shape, span, attributes⟩, variance⟩ := param
        cases shape with
        | any | var => exact absurd rfl hlegal
        | arrow | tuple | constr | object | aliased | variant | poly | package | extension => rfl

/-! ## code over parameters -/

/-- Code abstracted over legal parameters takes one argument for each of their names, the first one
first. -/
theorem abstracted_eq (h : ∀ p ∈ params, p.isLegal) (e : Expr π) :
    abstracted params e = .ok ((named params).foldr
      (fun x body => .lambda (.var (argName x) e.span) body e.span) e) :=
  foldNamesBack_of_isLegal h _ e

/-- The name of an argument has no more dots than that of the parameter. -/
theorem dot_not_mem_argName {x : String} (h : '.' ∉ x.toList) : '.' ∉ (argName x).toList := by
  rw [argName, String.toList_append, List.mem_append, not_or]
  exact ⟨by decide, h⟩

/-- Code applied to legal parameters gets these arguments back, by the same names. -/
theorem applied_eq (h : ∀ p ∈ params, p.isLegal) (hdots : ∀ x ∈ named params, '.' ∉ x.toList)
    (e : Expr π) :
    applied params e = .ok (.apply e
      ((named params).map fun x => .ident (.simple (argName x)) e.span) e.span) := by
  have hvars : (named params).map (fun x => Expr.var (argName x) e.span) =
      (named params).map fun x => (Expr.ident (.simple (argName x)) e.span : Expr π) :=
    List.map_congr_left fun x hx => by
      rw [Expr.var, QualName.ofDotted_of_dot_not_mem (dot_not_mem_argName (hdots x hx))]
  rw [applied, names_of_isLegal h, ← hvars]
  rfl

/-- Abstracted code stands where the code stood. -/
theorem span_foldr_lambda (names : List String) (e : Expr π) :
    (names.foldr (fun x body => Expr.lambda (.var (argName x) e.span) body e.span) e).span =
      e.span := by
  cases names <;> rfl

/-- A function of the parameters, applied to them, is what it is a function of. -/
theorem betaSteps_applied_abstracted (h : ∀ p ∈ params, p.isLegal)
    (hdots : ∀ x ∈ named params, '.' ∉ x.toList) (exports : QualName → String → Bool) (e : Expr π) :
    ∃ function call, abstracted params e = .ok function ∧ applied params function = .ok call ∧
      BetaSteps exports (named params).length call e := by
  have hsteps := betaSteps_apply_lambdas exports ((named params).map argName) e e.span
  rw [List.foldr_map, List.map_map, List.length_map] at hsteps
  refine ⟨_, _, abstracted_eq h e, applied_eq h hdots _, ?_⟩
  rw [span_foldr_lambda]
  exact hsteps

/-- A parameter that is neither a variable nor a wildcard is an error for each of the three: for the
call it is the first of these, and for the function and its type the last. -/
theorem errors_of_not_legal (h : ∃ p ∈ params, p.isLegal = false) :
    ∃ first last, params.find? (fun p => !p.isLegal) = some first ∧
      params.reverse.find? (fun p => !p.isLegal) = some last ∧
      ∀ (e : Expr π) (t : TypeExpr π) (transform : TypeExpr π → TypeExpr π),
        applied params e = .error first.type ∧ abstracted params e = .error last.type ∧
        arrows transform params t = .error last.type := by
  obtain ⟨p, hp, hnot⟩ := h
  obtain ⟨first, hfirst⟩ : ∃ first, params.find? (fun p => !p.isLegal) = some first :=
    Option.isSome_iff_exists.1 (List.find?_isSome.2 ⟨p, hp, by rw [hnot]; rfl⟩)
  obtain ⟨last, hlast⟩ : ∃ last, params.reverse.find? (fun p => !p.isLegal) = some last :=
    Option.isSome_iff_exists.1
      (List.find?_isSome.2 ⟨p, List.mem_reverse.2 hp, by rw [hnot]; rfl⟩)
  refine ⟨first, last, hfirst, hlast, fun e t transform => ⟨?_, ?_, ?_⟩⟩
  · rw [applied, names_of_find? hfirst]
    rfl
  · rw [abstracted, foldNamesBack, foldNames, names_of_find? hlast]
    rfl
  · rw [arrows, foldNamesBack, foldNames, names_of_find? hlast]
    rfl

/-- **Parameters fit together.** Whatever goes through the parameters of a declaration or of an
extension meets the named ones in one order, or in the other. If the parameters are variables and
wildcards, and no name has a dot in it, then a function of the parameters takes exactly one argument
for each named one, the first of them outermost; an application to them passes exactly these
arguments, in this order, and is what is applied if there are none; and a function type over them
has exactly one arrow for each. So applying a function of the parameters to them gives back what it
is a function of, one step for each named parameter. Any other parameter is an error. -/
theorem parameters_fit_together (params : List (TypeParam π)) :
    ((∀ p ∈ params, p.isLegal) → (∀ x ∈ named params, '.' ∉ x.toList) →
      (∀ (β : Type) (f : β → String → β) (start : β),
        foldNames f start params = .ok ((named params).foldl f start)) ∧
      (∀ (β : Type) (f : String → β → β) (start : β),
        foldNamesBack f start params = .ok ((named params).foldr f start)) ∧
      ∀ (e : Expr π) (t : TypeExpr π) (transform : TypeExpr π → TypeExpr π),
        ∃ function call type,
          abstracted params e = .ok function ∧ applied params e = .ok call ∧
          arrows transform params t = .ok type ∧
          function = (named params).foldr
            (fun x body => ⟨.lambda .positional none ⟨.var ⟨"poly_" ++ x, e.span⟩, e.span, []⟩ body,
              e.span, []⟩) e ∧
          (named params = [] → call = e) ∧
          (named params ≠ [] → call =
            ⟨.apply e ((named params).map fun x =>
              (.positional, ⟨.ident ⟨⟨[], "poly_" ++ x⟩, e.span⟩, e.span, []⟩)), e.span, []⟩) ∧
          type = (named params).foldr
            (fun x result => ⟨.arrow .positional (transform ⟨.var x, t.span, []⟩) result,
              t.span, []⟩) t ∧
          function.arity = (named params).length + e.arity ∧
          type.arity = (named params).length + t.arity ∧
          ∀ exports, ∃ back, applied params function = .ok back ∧
            BetaSteps exports (named params).length back e) ∧
    ((∃ p ∈ params, p.isLegal = false) →
      ∃ first last, params.find? (fun p => !p.isLegal) = some first ∧
        params.reverse.find? (fun p => !p.isLegal) = some last ∧
        ∀ (e : Expr π) (t : TypeExpr π) (transform : TypeExpr π → TypeExpr π),
          applied params e = .error first.type ∧ abstracted params e = .error last.type ∧
          arrows transform params t = .error last.type) := by
  refine ⟨fun h hdots => ⟨fun β => foldNames_of_isLegal h, fun β => foldNamesBack_of_isLegal h,
    fun e t transform => ?_⟩, errors_of_not_legal⟩
  refine ⟨_, _, _, abstracted_eq h e, applied_eq h hdots e, arrows_eq_foldr h transform t, rfl,
    fun hnone => by rw [hnone]; rfl, Expr.apply_map_eq e e.span _, rfl,
    Expr.arity_foldr_lambda _ _ e e.span, TypeExpr.arity_foldr_arrow _ _ t t.span,
    fun exports => ?_⟩
  obtain ⟨function, back, hfunction, hback, hsteps⟩ :=
    betaSteps_applied_abstracted h hdots exports e
  obtain rfl := Except.ok.inj ((abstracted_eq h e).symm.trans hfunction)
  exact ⟨back, hback, hsteps⟩

/-- The parameters `('b, _, 'a, 'b)`, and parameters of which the first and the last are types. -/
theorem parameters_fit_together_mixed :
    let var (name : String) : TypeExpr Payload := ⟨.var name, .generated, []⟩
    let type (name : String) : TypeExpr Payload :=
      ⟨.constr ⟨⟨[], name⟩, .generated⟩ [], .generated, []⟩
    let params : List (TypeParam Payload) :=
      [⟨var "b", .invariant⟩, ⟨⟨.any, .generated, []⟩, .invariant⟩, ⟨var "a", .invariant⟩,
        ⟨var "b", .invariant⟩]
    let illegal : List (TypeParam Payload) :=
      [⟨type "int", .invariant⟩, ⟨var "a", .invariant⟩, ⟨type "bool", .invariant⟩]
    let e : Expr Payload := ⟨.ident ⟨⟨[], "f"⟩, .generated⟩, .generated, []⟩
    let printer (t : TypeExpr Payload) : TypeExpr Payload :=
      ⟨.arrow .positional t (type "string"), t.span, []⟩
    let arg (name : String) : ArgLabel × Expr Payload :=
      (.positional, ⟨.ident ⟨⟨[], name⟩, .generated⟩, .generated, []⟩)
    (∀ p ∈ params, p.isLegal) ∧ (∀ x ∈ named params, '.' ∉ x.toList) ∧
    (∃ function call t,
      abstracted params e = .ok function ∧ applied params e = .ok call ∧
      arrows printer params (type "t") = .ok t ∧
      call = ⟨.apply e [arg "poly_b", arg "poly_a", arg "poly_b"], .generated, []⟩ ∧
      function.arity = 3 ∧ t.arity = 3 ∧
      ∀ exports, ∃ back, applied params function = .ok back ∧ BetaSteps exports 3 back e) ∧
    (∃ p ∈ illegal, p.isLegal = false) ∧
    applied illegal e = .error (type "int") ∧ abstracted illegal e = .error (type "bool") ∧
    arrows printer illegal (type "t") = .error (type "bool") := by
  intro var type params illegal e printer arg
  have hparams : ∀ p ∈ params, p.isLegal := by simp [params, var, isLegal]
  have hdots : ∀ x ∈ named params, '.' ∉ x.toList := by decide
  have hillegal : ∃ p ∈ illegal, p.isLegal = false := ⟨_, List.mem_cons_self, rfl⟩
  obtain ⟨function, call, t, hfunction, hcall, htype, -, -, hargs, -, harity, htarity, hback⟩ :=
    ((parameters_fit_together params).1 hparams hdots).2.2 e (type "t") printer
  obtain ⟨first, last, hfirst, hlast, herrors⟩ := (parameters_fit_together illegal).2 hillegal
  obtain rfl := Option.some.inj hfirst
  obtain rfl := Option.some.inj hlast
  exact ⟨hparams, hdots, ⟨function, call, t, hfunction, hcall, htype,
    hargs (List.cons_ne_nil _ _), harity, htarity, hback⟩, hillegal,
    herrors e (type "t") printer⟩

end TypeParam

end DeriveKit
