import DeriveKit.Tree.Expr

/-!
# DeriveKit.Code.Reduce

Combining expressions into one, from left to right (`Expr.reduce`): with an operator between them
(`operate`), or one evaluated after the other (`thenRun`). What is combined covers the places of its
parts.
-/

namespace DeriveKit

namespace Expr

variable {π : Type}

/-- Combines expressions from left to right; a single one stays as it is. -/
def reduce (combine : Expr π → Expr π → Expr π) : List (Expr π) → Option (Expr π)
  | [] => none
  | e :: rest => some (rest.foldl combine e)

/-- One expression after another, perhaps with a third in between. -/
def thenRun (between : Option (Expr π)) (a b : Expr π) : Expr π :=
  let span := a.span.merge b.span
  match between with
  | some c => sequence a (sequence c b span) span
  | none => sequence a b span

/-- An operator applied to two expressions. -/
def operate (operator a b : Expr π) : Expr π := apply operator [a, b] (a.span.merge b.span)

end Expr

end DeriveKit
