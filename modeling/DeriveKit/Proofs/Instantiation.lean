import DeriveKit.Proofs.ClosedType
import DeriveKit.Proofs.FreshNames

/-!
# DeriveKit.Proofs.Instantiation

Applying a declared type to fresh variables: each named parameter gets a variable of its own that
was not bound before, and wildcards stay as they are.

* `freshNames` — names taken one after the other;
* `TypeParam.Filled` — arguments for parameters, with variables in the place of the named ones;
* `TypeParam.refresh_eq` — what one pass over the parameters does;
* `TypeDecl.instantiation_is_fresh` — the result.
-/

namespace DeriveKit

/-! ## names taken one after the other -/

/-- The names that `n` searches find, if each name is bound once it is found. -/
def freshNames (bound : List String) : Nat → List String
  | 0 => []
  | n + 1 => freshName bound :: freshNames (bound ++ [freshName bound]) n

section

variable {bound : List String} {n : Nat} {v : String}

/-- There are as many names as were asked for. -/
@[simp] theorem length_freshNames (bound : List String) (n : Nat) :
    (freshNames bound n).length = n := by
  induction n generalizing bound with
  | zero => rfl
  | succ n ih => rw [freshNames, List.length_cons, ih]

/-- None of the names was bound before. -/
theorem not_mem_of_mem_freshNames (h : v ∈ freshNames bound n) : v ∉ bound := by
  induction n generalizing bound with
  | zero => exact absurd h List.not_mem_nil
  | succ n ih =>
      rw [freshNames, List.mem_cons] at h
      rcases h with rfl | h
      · exact freshName_not_mem bound
      · have hlater := ih h
        rw [List.mem_append, not_or] at hlater
        exact hlater.1

/-- No two of the names are the same. -/
theorem nodup_freshNames (bound : List String) (n : Nat) : (freshNames bound n).Nodup := by
  induction n generalizing bound with
  | zero => exact List.nodup_nil
  | succ n ih =>
      rw [freshNames, List.nodup_cons]
      refine ⟨fun h => ?_, ih _⟩
      exact not_mem_of_mem_freshNames h (List.mem_append_right bound (List.mem_singleton_self _))

end

variable {π : Type}

/-! ## variables in the place of parameters -/

namespace TypeParam

/-- Arguments for parameters: a wildcard stands as it is, and a named parameter is a variable, the
next one of those given. -/
inductive Filled : List (TypeParam π) → List String → List (TypeExpr π) → Prop
  | nil : Filled [] [] []
  | wildcard {param : TypeParam π} {params : List (TypeParam π)} {vars : List String}
      {args : List (TypeExpr π)} (h : param.type.shape = .any) (rest : Filled params vars args) :
      Filled (param :: params) vars (param.type :: args)
  | named {param : TypeParam π} {params : List (TypeParam π)} {vars : List String}
      {args : List (TypeExpr π)} {name v : String} (h : param.type.shape = .var name)
      (rest : Filled params vars args) :
      Filled (param :: params) (v :: vars) (⟨.var v, param.type.span, []⟩ :: args)

variable {params : List (TypeParam π)} {vars : List String} {args : List (TypeExpr π)}

/-- Each parameter has one argument. -/
theorem Filled.length_args (h : Filled params vars args) : args.length = params.length := by
  induction h with
  | nil => rfl
  | wildcard _ _ ih | named _ _ ih => rw [List.length_cons, List.length_cons, ih]

/-- The variables of the arguments are those given, one at each named parameter. -/
theorem Filled.mapM_freeVars (h : Filled params vars args) :
    ∃ found, args.mapM TypeExpr.freeVars = .ok found ∧ found.flatten = vars := by
  induction h with
  | nil => exact ⟨[], rfl, rfl⟩
  | @wildcard param _ _ _ hany _ ih =>
      obtain ⟨found, hrest, hvars⟩ := ih
      obtain ⟨⟨shape, span, attributes⟩, variance⟩ := param
      obtain rfl : shape = .any := hany
      exact ⟨[] :: found, by rw [List.mapM_cons, hrest]; rfl, hvars⟩
  | @named param _ _ _ _ v _ _ ih =>
      obtain ⟨found, hrest, hvars⟩ := ih
      exact ⟨[v] :: found, by rw [List.mapM_cons, hrest]; rfl, congrArg (v :: ·) hvars⟩

section

variable {params' : List (TypeParam π)} {bound bound' : List String} {span : Span}
  {attributes : List (Attribute π)} {variance : Variance}

/-- A wildcard takes no name. -/
theorem refresh_cons_any (h : refresh bound params = .ok (params', vars, bound')) :
    refresh bound (⟨⟨.any, span, attributes⟩, variance⟩ :: params) =
      .ok (⟨⟨.any, span, attributes⟩, variance⟩ :: params', vars, bound') := by
  rw [refresh, h]
  rfl

/-- A variable takes the next name, which is bound for the parameters after it. -/
theorem refresh_cons_var {name : String}
    (h : refresh (bound ++ [freshName bound]) params = .ok (params', vars, bound')) :
    refresh bound (⟨⟨.var name, span, attributes⟩, variance⟩ :: params) =
      .ok (⟨.var (freshName bound) span, variance⟩ :: params', freshName bound :: vars,
        bound') := by
  have hname : (⟨⟨.var name, span, attributes⟩, variance⟩ : TypeParam π).name? =
    .ok (some name) := rfl
  simp only [refresh, hname, bind, Except.bind, h]
  rfl

end

/-- A pass over parameters takes one fresh name for each that is named. -/
theorem refresh_eq (h : ∀ p ∈ params, p.isLegal) (bound : List String) :
    ∃ params', refresh bound params =
        .ok (params', freshNames bound (TypeParam.named params).length,
          bound ++ freshNames bound (TypeParam.named params).length) ∧
      Filled params (freshNames bound (TypeParam.named params).length) (params'.map (·.type)) := by
  induction params generalizing bound with
  | nil => exact ⟨[], by rw [refresh]; simp [TypeParam.named, freshNames], .nil⟩
  | cons param params ih =>
      obtain ⟨hparam, hparams⟩ := List.forall_mem_cons.1 h
      obtain ⟨⟨shape, span, attributes⟩, variance⟩ := param
      cases shape with
      | any =>
          obtain ⟨params', hrest, hfilled⟩ := ih hparams bound
          exact ⟨_, refresh_cons_any hrest, .wildcard rfl hfilled⟩
      | var name =>
          obtain ⟨params', hrest, hfilled⟩ := ih hparams (bound ++ [freshName bound])
          rw [List.append_assoc] at hrest
          exact ⟨_, refresh_cons_var hrest, .named rfl hfilled⟩
      | arrow | tuple | constr | object | aliased | variant | poly | package | extension =>
          exact absurd hparam Bool.false_ne_true

end TypeParam

namespace TypeDecl

/-- A declared type is applied to variables that no bound name is, in the order of the
parameters. -/
theorem instantiation_eq (decl : TypeDecl π) (h : ∀ p ∈ decl.params, p.isLegal)
    (bound : List String) :
    ∃ args, decl.instantiation bound = .ok
        ⟨.constr (.simple decl.name.value) args decl.span,
          freshNames bound (TypeParam.named decl.params).length,
          bound ++ freshNames bound (TypeParam.named decl.params).length⟩ ∧
      TypeParam.Filled decl.params
        (freshNames bound (TypeParam.named decl.params).length) args := by
  obtain ⟨params', hrefresh, hfilled⟩ := TypeParam.refresh_eq h bound
  refine ⟨params'.map (·.type), ?_, hfilled⟩
  rw [instantiation, hrefresh]
  rfl

/-- Applying a declared type to fresh variables takes one variable for each named parameter; they
are pairwise different, no bound name is among them, and from then on they are bound too. The type
is the declared constructor with one argument for each parameter: a wildcard stands as it is, and
any other argument is the next variable, so that the variables of the type are exactly the fresh
ones, in this order. What is applied to fresh variables afterwards shares none with it. -/
theorem instantiation_is_fresh (bound : List String) (decl : TypeDecl π)
    (h : ∀ p ∈ decl.params, p.isLegal) :
    ∃ args vars type, decl.instantiation bound = .ok ⟨type, vars, bound ++ vars⟩ ∧
      type = ⟨.constr ⟨⟨[], decl.name.value⟩, decl.span⟩ args, decl.span, []⟩ ∧
      vars.length = (TypeParam.named decl.params).length ∧ vars.Nodup ∧ (∀ v ∈ vars, v ∉ bound) ∧
      args.length = decl.params.length ∧ TypeParam.Filled decl.params vars args ∧
      type.freeVars = .ok vars ∧
      ∀ other : TypeDecl π, (∀ p ∈ other.params, p.isLegal) →
        ∃ again, other.instantiation (bound ++ vars) = .ok again ∧ again.vars.Disjoint vars := by
  obtain ⟨args, heq, hfilled⟩ := decl.instantiation_eq h bound
  refine ⟨args, _, _, heq, rfl, length_freshNames _ _, nodup_freshNames _ _,
    fun v => not_mem_of_mem_freshNames, hfilled.length_args, hfilled, ?_, fun other hother => ?_⟩
  · obtain ⟨found, hargs, hfound⟩ := hfilled.mapM_freeVars
    rw [TypeExpr.freeVars_of_parts
      (t := .constr (.simple decl.name.value) args decl.span) rfl, hargs]
    show Except.ok found.flatten.eraseDups = _
    rw [hfound, eraseDups_of_nodup (nodup_freshNames _ _)]
  · obtain ⟨args', heq', -⟩ := other.instantiation_eq hother
      (bound ++ freshNames bound (TypeParam.named decl.params).length)
    exact ⟨_, heq', fun v hv hold =>
      not_mem_of_mem_freshNames hv (List.mem_append_right bound hold)⟩

/-- A declaration `(_, 'x, 'x) t` where `a` and `c` are bound. -/
theorem instantiation_is_fresh_mixed :
    let x : TypeExpr Payload := ⟨.var "x", .generated, []⟩
    let decl : TypeDecl Payload :=
      ⟨.generated "t", [⟨⟨.any, .generated, []⟩, .invariant⟩, ⟨x, .invariant⟩,
        ⟨x, .covariant⟩], .abstract, false, none, [], .generated⟩
    (∀ p ∈ decl.params, p.isLegal) ∧ freshNames ["a", "c"] 2 = ["b", "d"] ∧
    ∃ args vars type, decl.instantiation ["a", "c"] = .ok ⟨type, vars, ["a", "c"] ++ vars⟩ ∧
      type = ⟨.constr ⟨⟨[], "t"⟩, .generated⟩ args, .generated, []⟩ ∧
      vars.length = 2 ∧ vars.Nodup ∧ (∀ v ∈ vars, v ∉ ["a", "c"]) ∧
      args.length = 3 ∧ TypeParam.Filled decl.params vars args ∧ type.freeVars = .ok vars ∧
      ∃ again, decl.instantiation (["a", "c"] ++ vars) = .ok again ∧ again.vars.Disjoint vars := by
  intro x decl
  have hparams : ∀ p ∈ decl.params, p.isLegal := by
    simp [decl, x, TypeParam.isLegal]
  obtain ⟨args, vars, type, heq, htype, hlength, hnodup, hnew, hargs, hfilled, hfree, hagain⟩ :=
    instantiation_is_fresh ["a", "c"] decl hparams
  exact ⟨hparams, by decide +kernel, args, vars, type, heq, htype, hlength, hnodup, hnew, hargs,
    hfilled, hfree, hagain decl hparams⟩

end TypeDecl

end DeriveKit
