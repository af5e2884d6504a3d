import DeriveKit.Code.Visit

/-!
# DeriveKit.Proofs.Lockstep

Two visitors side by side. If what they do at each node is related (`Visitor.Related`), in a way
that doing nothing and doing one thing after another keep (`Lockstep`), then so are their ways
through an expression (`Lockstep.visit`). The monads of the two need not be the same: one of them
may fail or keep a record where the other does not. With `Visitor.ofExpr`, which does something at
expressions only, it is enough to compare what is done at expressions (`Visitor.related_ofExpr`).
-/

namespace DeriveKit

/-- A relation between steps of two kinds that is kept when steps are put together. -/
structure Lockstep (m n : Type → Type) [Monad m] [Monad n] where
  rel : {α : Type} → m α → n α → Prop
  pure : ∀ {α : Type} (a : α), rel (pure a) (pure a)
  bind : ∀ {α β : Type} {x : m α} {y : n α} {f : α → m β} {g : α → n β},
    rel x y → (∀ a, rel (f a) (g a)) → rel (x >>= f) (y >>= g)

variable {m n : Type → Type} [Monad m] [Monad n] {π : Type}

/-- What two visitors do at each node is related. -/
structure Visitor.Related (R : Lockstep m n) (v : Visitor m π) (w : Visitor n π) : Prop where
  expr : ∀ e, R.rel (v.expr e) (w.expr e)
  binding : ∀ b, R.rel (v.binding b) (w.binding b)
  case : ∀ c, R.rel (v.case c) (w.case c)

/-- Visitors that do something at expressions only are related if what they do there is. -/
theorem Visitor.related_ofExpr {R : Lockstep m n} {f : Expr π → m (Option (Expr π))}
    {g : Expr π → n (Option (Expr π))} (h : ∀ e, R.rel (f e) (g e)) :
    Related R (.ofExpr f) (.ofExpr g) where
  expr := h
  binding _ := R.pure ()
  case _ := R.pure ()

namespace Lockstep

variable {R : Lockstep m n} {v : Visitor m π} {w : Visitor n π}

mutual

/-- **Related visitors go through an expression in related ways.** -/
theorem visit (h : v.Related R w) : (e : Expr π) → R.rel (e.visit v) (e.visit w)
  | ⟨shape, span, attributes⟩ => by
      rw [Expr.visit, Expr.visit]
      refine R.bind (h.expr _) fun replaced => ?_
      cases replaced with
      | some e => exact R.pure e
      | none => exact R.bind (visitShape h shape) fun _ => R.pure _

/-- Two visitors stay in step through the parts of a form: the induction is on the tree, and each
form is visited by one step after another, which the relation keeps. -/
theorem visitShape (h : v.Related R w) : (s : ExprShape π) → R.rel (s.visit v) (s.visit w)
  | .ident _ | .constant _ | .extension _ => by
      rw [ExprShape.visit, ExprShape.visit]
      exact R.pure _
  | .letIn _ bindings body => by
      rw [ExprShape.visit, ExprShape.visit]
      exact R.bind (visitBindings h bindings) fun _ => R.bind (visit h body) fun _ => R.pure _
  | .function cases => by
      rw [ExprShape.visit, ExprShape.visit]
      exact R.bind (visitCases h cases) fun _ => R.pure _
  | .lambda _ default _ body => by
      rw [ExprShape.visit, ExprShape.visit]
      exact R.bind (visitOption h default) fun _ => R.bind (visit h body) fun _ => R.pure _
  | .apply callee args => by
      rw [ExprShape.visit, ExprShape.visit]
      exact R.bind (visit h callee) fun _ => R.bind (visitArgs h args) fun _ => R.pure _
  | .matchWith scrutinee cases => by
      rw [ExprShape.visit, ExprShape.visit]
      exact R.bind (visit h scrutinee) fun _ => R.bind (visitCases h cases) fun _ => R.pure _
  | .tuple elements => by
      rw [ExprShape.visit, ExprShape.visit]
      exact R.bind (visitAll h elements) fun _ => R.pure _
  | .construct _ arg | .variant _ arg => by
      rw [ExprShape.visit, ExprShape.visit]
      exact R.bind (visitOption h arg) fun _ => R.pure _
  | .record fields base => by
      rw [ExprShape.visit, ExprShape.visit]
      exact R.bind (visitOption h base) fun _ => R.bind (visitFields h fields) fun _ => R.pure _
  | .field expr _ | .constraint expr _ | .openIn _ expr => by
      rw [ExprShape.visit, ExprShape.visit]
      exact R.bind (visit h expr) fun _ => R.pure _
  | .ifThenElse condition onTrue onFalse => by
      rw [ExprShape.visit, ExprShape.visit]
      exact R.bind (visit h condition) fun _ => R.bind (visit h onTrue) fun _ =>
        R.bind (visitOption h onFalse) fun _ => R.pure _
  | .sequence first second => by
      rw [ExprShape.visit, ExprShape.visit]
      exact R.bind (visit h first) fun _ => R.bind (visit h second) fun _ => R.pure _

/-- The visitors stay in step on a part that may be absent. -/
theorem visitOption (h : v.Related R w) : (e : Option (Expr π)) →
    R.rel (Expr.visitOption v e) (Expr.visitOption w e)
  | none => by
      rw [Expr.visitOption, Expr.visitOption]
      exact R.pure none
  | some e => by
      rw [Expr.visitOption, Expr.visitOption]
      exact R.bind (visit h e) fun _ => R.pure _

/-- The visitors stay in step on parts one after the other. -/
theorem visitAll (h : v.Related R w) : (es : List (Expr π)) →
    R.rel (Expr.visitAll v es) (Expr.visitAll w es)
  | [] => by
      rw [Expr.visitAll, Expr.visitAll]
      exact R.pure []
  | e :: rest => by
      rw [Expr.visitAll, Expr.visitAll]
      exact R.bind (visit h e) fun _ => R.bind (visitAll h rest) fun _ => R.pure _

/-- The visitors stay in step on arguments, whose labels they do not visit. -/
theorem visitArgs (h : v.Related R w) : (args : List (ArgLabel × Expr π)) →
    R.rel (Expr.visitArgs v args) (Expr.visitArgs w args)
  | [] => by
      rw [Expr.visitArgs, Expr.visitArgs]
      exact R.pure []
  | (_, e) :: rest => by
      rw [Expr.visitArgs, Expr.visitArgs]
      exact R.bind (visit h e) fun _ => R.bind (visitArgs h rest) fun _ => R.pure _

/-- The visitors stay in step on fields. -/
theorem visitFields (h : v.Related R w) : (fields : List (Located QualName × Expr π)) →
    R.rel (Expr.visitFields v fields) (Expr.visitFields w fields)
  | [] => by
      rw [Expr.visitFields, Expr.visitFields]
      exact R.pure []
  | (_, e) :: rest => by
      rw [Expr.visitFields, Expr.visitFields]
      exact R.bind (visit h e) fun _ => R.bind (visitFields h rest) fun _ => R.pure _

/-- The visitors stay in step on cases: the guard comes before the body. -/
theorem visitCases (h : v.Related R w) : (cases : List (Case π)) →
    R.rel (Case.visitAll v cases) (Case.visitAll w cases)
  | [] => by
      rw [Case.visitAll, Case.visitAll]
      exact R.pure []
  | ⟨_, guard, body⟩ :: rest => by
      rw [Case.visitAll, Case.visitAll]
      exact R.bind (h.case _) fun _ => R.bind (visitOption h guard) fun _ =>
        R.bind (visit h body) fun _ => R.bind (visitCases h rest) fun _ => R.pure _

/-- The visitors stay in step on bindings, whose patterns they do not visit. -/
theorem visitBindings (h : v.Related R w) : (bindings : List (Binding π)) →
    R.rel (Binding.visitAll v bindings) (Binding.visitAll w bindings)
  | [] => by
      rw [Binding.visitAll, Binding.visitAll]
      exact R.pure []
  | ⟨_, expr, _, _⟩ :: rest => by
      rw [Binding.visitAll, Binding.visitAll]
      exact R.bind (h.binding _) fun _ => R.bind (visit h expr) fun _ =>
        R.bind (visitBindings h rest) fun _ => R.pure _

end

end Lockstep

end DeriveKit
