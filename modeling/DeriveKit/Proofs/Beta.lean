import DeriveKit.Proofs.Scope

/-!
# DeriveKit.Proofs.Beta

Applying functions to variables. A step takes the first argument of an application, puts it in the
place of the parameter in the body, and applies the body to the other arguments (`Beta`).

Putting one variable in the place of another is not always possible: a binder or an opening between
the two may give the new name another meaning. `Expr.put` then has no result, so a step never
changes what a name means. A variable can always be put in its own place, and that changes nothing
(`Expr.put_self`).
-/

namespace DeriveKit

variable {π : Type}

/-! ## variables in the place of variables -/

section

variable (exports : QualName → String → Bool) (x y : String)

/-- What becomes of a part `e` that stands under `frames`, where `put` is `e` with `y` in the place
of `x`. The part stays as it is if the frames give `x` another meaning; else they must not give one
to `y`. -/
def Scope.carry (frames : Scope π) (e : Expr π) (put : Option (Expr π)) : Option (Expr π) :=
  if (frames.lookup exports x).isSome then some e
  else if (frames.lookup exports y).isSome then none
  else put

/-- The frames that a group of bindings adds to its own expressions. -/
def Recursion.frames (bindings : List (Binding π)) : Recursion → Scope π
  | .recursive => Binding.frames bindings
  | .nonrecursive => []

mutual

/-- The expression with the variable `y` in the place of the variable `x`, if no `y` that is put
there gets another meaning. `exports` says which names modules have. -/
def Expr.put : Expr π → Option (Expr π)
  | ⟨shape, span, attributes⟩ => do return ⟨← ExprShape.put shape, span, attributes⟩

/-- The form with `y` in the place of `x`. -/
def ExprShape.put : ExprShape π → Option (ExprShape π)
  | .ident name =>
      return .ident (if name.value = ⟨[], x⟩ then ⟨⟨[], y⟩, name.span⟩ else name)
  | .constant value => return .constant value
  | .letIn recursion bindings body =>
      return .letIn recursion (← Binding.putAll (recursion.frames bindings) bindings)
        (← (Binding.frames bindings).carry exports x y body (Expr.put body))
  | .function cases => return .function (← Case.putAll cases)
  | .lambda label default param body =>
      return .lambda label (← Expr.putOption default) param
        (← param.frames.carry exports x y body (Expr.put body))
  | .apply function args => return .apply (← Expr.put function) (← Expr.putArgs args)
  | .matchWith scrutinee cases => return .matchWith (← Expr.put scrutinee) (← Case.putAll cases)
  | .tuple elements => return .tuple (← Expr.putAll elements)
  | .construct name arg => return .construct name (← Expr.putOption arg)
  | .variant tag arg => return .variant tag (← Expr.putOption arg)
  | .record fields base => return .record (← Expr.putFields fields) (← Expr.putOption base)
  | .field record label => return .field (← Expr.put record) label
  | .ifThenElse condition onTrue onFalse =>
      return .ifThenElse (← Expr.put condition) (← Expr.put onTrue) (← Expr.putOption onFalse)
  | .sequence first second => return .sequence (← Expr.put first) (← Expr.put second)
  | .constraint expr type => return .constraint (← Expr.put expr) type
  | .openIn decl body =>
      return .openIn decl (← Scope.carry exports x y [.opened decl.module.value] body
        (Expr.put body))
  | .extension ext => return .extension ext

/-- An expression that may be absent, with `y` in the place of `x`. -/
def Expr.putOption : Option (Expr π) → Option (Option (Expr π))
  | none => return none
  | some e => return some (← Expr.put e)

/-- Expressions with `y` in the place of `x`. -/
def Expr.putAll : List (Expr π) → Option (List (Expr π))
  | [] => return []
  | e :: rest => return (← Expr.put e) :: (← Expr.putAll rest)

/-- Arguments with `y` in the place of `x`. -/
def Expr.putArgs : List (ArgLabel × Expr π) → Option (List (ArgLabel × Expr π))
  | [] => return []
  | (label, e) :: rest => return (label, ← Expr.put e) :: (← Expr.putArgs rest)

/-- The values of fields with `y` in the place of `x`. -/
def Expr.putFields : List (Located QualName × Expr π) → Option (List (Located QualName × Expr π))
  | [] => return []
  | (label, e) :: rest => return (label, ← Expr.put e) :: (← Expr.putFields rest)

/-- Cases with `y` in the place of `x`, where their patterns do not bind `x`. -/
def Case.putAll : List (Case π) → Option (List (Case π))
  | [] => return []
  | ⟨pattern, none, body⟩ :: rest =>
      return ⟨pattern, none, ← pattern.frames.carry exports x y body (Expr.put body)⟩ ::
        (← Case.putAll rest)
  | ⟨pattern, some guard, body⟩ :: rest =>
      return ⟨pattern, some (← pattern.frames.carry exports x y guard (Expr.put guard)),
        ← pattern.frames.carry exports x y body (Expr.put body)⟩ :: (← Case.putAll rest)

/-- Bindings with `y` in the place of `x` in their expressions, which stand under `frames`. -/
def Binding.putAll (frames : Scope π) : List (Binding π) → Option (List (Binding π))
  | [] => return []
  | ⟨pattern, expr, attributes, span⟩ :: rest =>
      return ⟨pattern, ← frames.carry exports x y expr (Expr.put expr), attributes, span⟩ ::
        (← Binding.putAll frames rest)

end

end

/-- In `let x = x in x` the first `x` that is used is the one outside. -/
example :
    let x : Expr π := .ident (.simple "x") .generated
    let y : Expr π := .ident (.simple "y") .generated
    let binding (e : Expr π) : Binding π := .bare (.var "x" .generated) e .generated
    (Expr.letIn .nonrecursive [binding x] x .generated).put (fun _ _ => false) "x" "y" =
      some (.letIn .nonrecursive [binding y] x .generated) := rfl

/-! ## a variable in its own place -/

section

variable (exports : QualName → String → Bool) (x : String)

/-- A variable that takes its own place needs no binder to be out of the way. -/
theorem Scope.carry_self (frames : Scope π) (e : Expr π) :
    frames.carry exports x x e (some e) = some e := by
  rw [carry]
  split <;> simp_all

mutual

/-- Nothing changes and nothing is in the way where a variable is put in its own place. -/
theorem Expr.put_self : (e : Expr π) → e.put exports x x = some e
  | ⟨shape, _, _⟩ => by simp [Expr.put, ExprShape.put_self shape]

/-- Putting a variable in its own place changes no form, whatever its binders are. The induction is
that of `Expr.put_self`, for all kinds of nodes at once. -/
theorem ExprShape.put_self : (s : ExprShape π) → s.put exports x x = some s
  | .ident name => by
      by_cases h : name.value = ⟨[], x⟩
      · simp [ExprShape.put, ← h]
      · simp [ExprShape.put, h]
  | .constant _ | .extension _ => rfl
  | .letIn recursion bindings body => by
      simp [ExprShape.put, Binding.putAll_self (recursion.frames bindings) bindings,
        Expr.put_self body, Scope.carry_self]
  | .function cases => by simp [ExprShape.put, Case.putAll_self cases]
  | .lambda _ default _ body => by
      simp [ExprShape.put, Expr.putOption_self default, Expr.put_self body, Scope.carry_self]
  | .apply function args => by
      simp [ExprShape.put, Expr.put_self function, Expr.putArgs_self args]
  | .matchWith scrutinee cases => by
      simp [ExprShape.put, Expr.put_self scrutinee, Case.putAll_self cases]
  | .tuple elements => by simp [ExprShape.put, Expr.putAll_self elements]
  | .construct _ arg | .variant _ arg => by simp [ExprShape.put, Expr.putOption_self arg]
  | .record fields base => by
      simp [ExprShape.put, Expr.putFields_self fields, Expr.putOption_self base]
  | .field record _ => by simp [ExprShape.put, Expr.put_self record]
  | .ifThenElse condition onTrue onFalse => by
      simp [ExprShape.put, Expr.put_self condition, Expr.put_self onTrue,
        Expr.putOption_self onFalse]
  | .sequence first second => by
      simp [ExprShape.put, Expr.put_self first, Expr.put_self second]
  | .constraint expr _ => by simp [ExprShape.put, Expr.put_self expr]
  | .openIn _ body => by simp [ExprShape.put, Expr.put_self body, Scope.carry_self]

theorem Expr.putOption_self : (e : Option (Expr π)) → Expr.putOption exports x x e = some e
  | none => rfl
  | some e => by simp [Expr.putOption, Expr.put_self e]

theorem Expr.putAll_self : (es : List (Expr π)) → Expr.putAll exports x x es = some es
  | [] => rfl
  | e :: rest => by simp [Expr.putAll, Expr.put_self e, Expr.putAll_self rest]

theorem Expr.putArgs_self : (args : List (ArgLabel × Expr π)) →
    Expr.putArgs exports x x args = some args
  | [] => rfl
  | (_, e) :: rest => by simp [Expr.putArgs, Expr.put_self e, Expr.putArgs_self rest]

theorem Expr.putFields_self : (fields : List (Located QualName × Expr π)) →
    Expr.putFields exports x x fields = some fields
  | [] => rfl
  | (_, e) :: rest => by simp [Expr.putFields, Expr.put_self e, Expr.putFields_self rest]

/-- Cases stay as they are, although each of them binds what its pattern does. -/
theorem Case.putAll_self : (cases : List (Case π)) → Case.putAll exports x x cases = some cases
  | [] => rfl
  | ⟨_, none, body⟩ :: rest => by
      simp [Case.putAll, Expr.put_self body, Scope.carry_self, Case.putAll_self rest]
  | ⟨_, some guard, body⟩ :: rest => by
      simp [Case.putAll, Expr.put_self guard, Expr.put_self body, Scope.carry_self,
        Case.putAll_self rest]

/-- Bindings stay as they are under the binders that `frames` lists. -/
theorem Binding.putAll_self (frames : Scope π) : (bindings : List (Binding π)) →
    Binding.putAll exports x x frames bindings = some bindings
  | [] => rfl
  | ⟨_, expr, _, _⟩ :: rest => by
      simp [Binding.putAll, Expr.put_self expr, Scope.carry_self, Binding.putAll_self frames rest]

end

end

/-! ## steps -/

/-- A step of applying a function to the first of its arguments, where that is a variable. What is
left is applied to the other arguments, and is not an application any more after the last of
them. -/
inductive Beta (exports : QualName → String → Bool) : Expr π → Expr π → Prop
  | step {x y : String} {body result : Expr π} {args : List (ArgLabel × Expr π)}
      {atName atParam atLambda atOther atArg span : Span}
      (h : body.put exports x y = some result) (hargs : args ≠ []) :
      Beta exports
        ⟨.apply ⟨.lambda .positional none ⟨.var ⟨x, atName⟩, atParam, []⟩ body, atLambda, []⟩
          ((.positional, ⟨.ident ⟨⟨[], y⟩, atOther⟩, atArg, []⟩) :: args), span, []⟩
        ⟨.apply result args, span, []⟩
  | last {x y : String} {body result : Expr π} {atName atParam atLambda atOther atArg span : Span}
      (h : body.put exports x y = some result) :
      Beta exports
        ⟨.apply ⟨.lambda .positional none ⟨.var ⟨x, atName⟩, atParam, []⟩ body, atLambda, []⟩
          [(.positional, ⟨.ident ⟨⟨[], y⟩, atOther⟩, atArg, []⟩)], span, []⟩
        result

/-- So many steps, one after the other. -/
inductive BetaSteps (exports : QualName → String → Bool) : Nat → Expr π → Expr π → Prop
  | none (e : Expr π) : BetaSteps exports 0 e e
  | more {n : Nat} {e e' e'' : Expr π} (first : Beta exports e e')
      (rest : BetaSteps exports n e' e'') : BetaSteps exports (n + 1) e e''

/-- Functions of parameters, applied to variables of the same names in the same order, give back
what they are functions of, one step for each parameter. -/
theorem betaSteps_apply_lambdas (exports : QualName → String → Bool) (names : List String)
    (e : Expr π) (span : Span) :
    BetaSteps exports names.length
      (.apply (names.foldr (fun x body => .lambda (.var x span) body span) e)
        (names.map fun x => .ident (.simple x) span) span) e := by
  induction names with
  | nil => exact .none e
  | cons x names ih =>
      have hput := Expr.put_self exports x
        (names.foldr (fun x body => .lambda (.var x span) body span) e)
      cases names with
      | nil => exact .more (.last hput) ih
      | cons x' names => exact .more (.step hput (List.cons_ne_nil _ _)) ih

end DeriveKit
