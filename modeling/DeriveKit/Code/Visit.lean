import DeriveKit.Tree.Expr

/-!
# DeriveKit.Code.Visit

Going through an expression. A visitor is asked about every expression in an expression position,
parents before children and siblings in the order of the source; it may put another expression in
its place, which is not gone through, or let the traversal go on below. Patterns, types, attributes
and extension nodes hold no expression positions.
-/

namespace DeriveKit

/-- What to do at the nodes of an expression. -/
structure Visitor (m : Type → Type) (π : Type) where
  /-- Called on an expression before its parts; a result takes its place. -/
  expr : Expr π → m (Option (Expr π))
  /-- Called on a binding before its expression. -/
  binding : Binding π → m Unit
  /-- Called on a case before its guard and its body. -/
  case : Case π → m Unit

/-- A visitor that does something at expressions only. -/
def Visitor.ofExpr {m : Type → Type} [Monad m] {π : Type} (expr : Expr π → m (Option (Expr π))) :
    Visitor m π where
  expr := expr
  binding _ := pure ()
  case _ := pure ()

variable {m : Type → Type} [Monad m] {π : Type}

mutual

/-- Goes through an expression. -/
def Expr.visit (v : Visitor m π) : Expr π → m (Expr π)
  | ⟨shape, span, attributes⟩ => do
    match ← v.expr ⟨shape, span, attributes⟩ with
    | some e => return e
    | none => return ⟨← ExprShape.visit v shape, span, attributes⟩

/-- Goes through the parts of an expression. -/
def ExprShape.visit (v : Visitor m π) : ExprShape π → m (ExprShape π)
  | .ident name => return .ident name
  | .constant value => return .constant value
  | .letIn recursion bindings body =>
      return .letIn recursion (← Binding.visitAll v bindings) (← Expr.visit v body)
  | .function cases => return .function (← Case.visitAll v cases)
  | .lambda label default param body =>
      return .lambda label (← Expr.visitOption v default) param (← Expr.visit v body)
  | .apply function args => return .apply (← Expr.visit v function) (← Expr.visitArgs v args)
  | .matchWith scrutinee cases =>
      return .matchWith (← Expr.visit v scrutinee) (← Case.visitAll v cases)
  | .tuple elements => return .tuple (← Expr.visitAll v elements)
  | .construct name arg => return .construct name (← Expr.visitOption v arg)
  | .variant tag arg => return .variant tag (← Expr.visitOption v arg)
  | .record fields base => do
    let base ← Expr.visitOption v base
    return .record (← Expr.visitFields v fields) base
  | .field record label => return .field (← Expr.visit v record) label
  | .ifThenElse condition onTrue onFalse =>
      return .ifThenElse (← Expr.visit v condition) (← Expr.visit v onTrue)
        (← Expr.visitOption v onFalse)
  | .sequence first second => return .sequence (← Expr.visit v first) (← Expr.visit v second)
  | .constraint expr type => return .constraint (← Expr.visit v expr) type
  | .openIn decl body => return .openIn decl (← Expr.visit v body)
  | .extension ext => return .extension ext

/-- Goes through an expression that may be absent. -/
def Expr.visitOption (v : Visitor m π) : Option (Expr π) → m (Option (Expr π))
  | none => return none
  | some e => return some (← Expr.visit v e)

/-- Goes through expressions in order. -/
def Expr.visitAll (v : Visitor m π) : List (Expr π) → m (List (Expr π))
  | [] => return []
  | e :: rest => return (← Expr.visit v e) :: (← Expr.visitAll v rest)

/-- Goes through arguments in order. -/
def Expr.visitArgs (v : Visitor m π) : List (ArgLabel × Expr π) → m (List (ArgLabel × Expr π))
  | [] => return []
  | (label, e) :: rest => return (label, ← Expr.visit v e) :: (← Expr.visitArgs v rest)

/-- Goes through the values of fields in order. -/
def Expr.visitFields (v : Visitor m π) :
    List (Located QualName × Expr π) → m (List (Located QualName × Expr π))
  | [] => return []
  | (label, e) :: rest => return (label, ← Expr.visit v e) :: (← Expr.visitFields v rest)

/-- Goes through cases in order, the guard of each before its body. -/
def Case.visitAll (v : Visitor m π) : List (Case π) → m (List (Case π))
  | [] => return []
  | ⟨pattern, guard, body⟩ :: rest => do
    v.case ⟨pattern, guard, body⟩
    return ⟨pattern, ← Expr.visitOption v guard, ← Expr.visit v body⟩ :: (← Case.visitAll v rest)

/-- Goes through the expressions of bindings in order. -/
def Binding.visitAll (v : Visitor m π) : List (Binding π) → m (List (Binding π))
  | [] => return []
  | ⟨pattern, expr, attributes, span⟩ :: rest => do
    v.binding ⟨pattern, expr, attributes, span⟩
    return ⟨pattern, ← Expr.visit v expr, attributes, span⟩ :: (← Binding.visitAll v rest)

end

/-- The identifier `target` in the place of the expression, if that is the identifier `source`. -/
def Expr.renamed? (source target : QualName) (e : Expr π) : Option (Expr π) :=
  match e.shape with
  | .ident name => if name.value = source then some { e with shape := .ident ⟨target, name.span⟩ }
    else none
  | _ => none

/-- Puts the identifier `target` in the place of every identifier `source`. -/
def Expr.rename (source target : QualName) (e : Expr π) : Expr π :=
  Id.run (e.visit (.ofExpr fun e => pure (e.renamed? source target)))

end DeriveKit
