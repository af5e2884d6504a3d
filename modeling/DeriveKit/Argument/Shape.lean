import DeriveKit.Tree.Expr

/-!
# DeriveKit.Argument.Shape

What an expression is as an argument (`Argument`): a literal, a tag, a list, a record, or none of
these. It is told from the form of the expression and the names in it alone (`Expr.asArgument`), so
places play no part, and attributes are looked through, also those of the constructors and pairs
that a list literal is made of (`Expr.listElements?`).
-/

namespace DeriveKit

variable {π : Type}

/-- The elements of a list literal, whatever attributes its parts carry. -/
def Expr.listElements? : Expr π → Option (List (Expr π))
  | ⟨.construct name none, _, _⟩ => if name.value = .simple "[]" then some [] else none
  | ⟨.construct name (some ⟨.tuple [head, tail], _, _⟩), _, _⟩ =>
      if name.value = .simple "::" then (Expr.listElements? tail).map (head :: ·) else none
  | _ => none

/-- The kinds of argument. Integers keep the text of the literal. -/
inductive Argument (π : Type)
  | int (literal : String)
  | bool (value : Bool)
  | string (value : String)
  | char (value : Char)
  | tag (name : String)
  | list (elements : List (Expr π))
  | record (fields : List (Located QualName × Expr π))
  | other

/-- A list argument if the expression is a list literal. -/
def Expr.asList (e : Expr π) : Argument π :=
  match e.listElements? with
  | some elements => .list elements
  | none => .other

/-- What the expression is as an argument. Literals with a suffix and records with a base are not
arguments of their own kind. -/
def Expr.asArgument (e : Expr π) : Argument π :=
  match e.shape with
  | .constant (.integer literal none) => .int literal
  | .constant (.string value _) => .string value
  | .constant (.char value) => .char value
  | .construct name none =>
      if name.value = .simple "true" then .bool true
      else if name.value = .simple "false" then .bool false
      else e.asList
  | .construct _ (some _) => e.asList
  | .variant tag none => .tag tag
  | .record fields none => .record fields
  | _ => .other

end DeriveKit
