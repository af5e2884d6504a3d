import DeriveKit.Tree.Pattern

/-!
# DeriveKit.Tree.Expr

Expressions, the cases of a match (`Case`) and the bindings of a `let` (`Binding`). An `Expr` is an
`ExprShape` with a place and attributes. The short forms for building expressions, such as
`Expr.apply` and `Expr.lambda`, make nodes without attributes; some of them look at what they are
given, so an application to no arguments is the function itself.
-/

namespace DeriveKit

/-- Whether the names that a group defines are in scope inside the group. -/
inductive Recursion
  | nonrecursive
  | recursive
deriving DecidableEq, Repr

/-- The opening of a module, `override` if it may shadow without a warning. -/
structure OpenDecl (π : Type) where
  module : Located QualName
  override : Bool
  attributes : List (Attribute π)
  span : Span

mutual

/-- An expression, where it stands, and its attributes. -/
structure Expr (π : Type) where
  shape : ExprShape π
  span : Span
  attributes : List (Attribute π)

/-- The forms of an expression. -/
inductive ExprShape (π : Type)
  | ident (name : Located QualName)
  | constant (value : Constant)
  | letIn (recursion : Recursion) (bindings : List (Binding π)) (body : Expr π)
  | function (cases : List (Case π))
  | lambda (label : ArgLabel) (default : Option (Expr π)) (param : Pattern π) (body : Expr π)
  | apply (function : Expr π) (args : List (ArgLabel × Expr π))
  | matchWith (scrutinee : Expr π) (cases : List (Case π))
  | tuple (elements : List (Expr π))
  | construct (name : Located QualName) (arg : Option (Expr π))
  | variant (tag : String) (arg : Option (Expr π))
  | record (fields : List (Located QualName × Expr π)) (base : Option (Expr π))
  | field (record : Expr π) (label : Located QualName)
  | ifThenElse (condition onTrue : Expr π) (onFalse : Option (Expr π))
  | sequence (first second : Expr π)
  | constraint (expr : Expr π) (type : TypeExpr π)
  | openIn (decl : OpenDecl π) (body : Expr π)
  | extension (ext : Extension π)

/-- A case of a match: a pattern, perhaps a guard, and what to compute. -/
structure Case (π : Type) where
  pattern : Pattern π
  guard : Option (Expr π)
  body : Expr π

/-- A pattern bound to the value of an expression. -/
structure Binding (π : Type) where
  pattern : Pattern π
  expr : Expr π
  attributes : List (Attribute π)
  span : Span

end

variable {π : Type}

namespace Expr

/-- An expression without attributes. -/
def bare (shape : ExprShape π) (span : Span) : Expr π := ⟨shape, span, []⟩

/-- An identifier. -/
def ident (name : QualName) (span : Span) : Expr π := bare (.ident ⟨name, span⟩) span

/-- An identifier, its name written with dots. -/
def var (dotted : String) (span : Span) : Expr π := ident (.ofDotted dotted) span

/-- A literal. -/
def constant (value : Constant) (span : Span) : Expr π := bare (.constant value) span

/-- An integer literal in decimal notation. -/
def int (value : Int) (span : Span) : Expr π := constant (.integer (toString value) none) span

/-- A string literal in double quotes. -/
def string (value : String) (span : Span) : Expr π := constant (.string value none) span

/-- A character literal. -/
def char (value : Char) (span : Span) : Expr π := constant (.char value) span

/-- A constructor, perhaps with an argument. -/
def construct (name : QualName) (arg : Option (Expr π)) (span : Span) : Expr π :=
  bare (.construct ⟨name, span⟩ arg) span

/-- The unit value. -/
def unit (span : Span) : Expr π := construct (.simple "()") none span

/-- A truth value. -/
def bool (value : Bool) (span : Span) : Expr π :=
  construct (.simple (if value then "true" else "false")) none span

/-- A product. -/
def tuple (elements : List (Expr π)) (span : Span) : Expr π := bare (.tuple elements) span

/-- The empty list. -/
def nil (span : Span) : Expr π := construct (.simple "[]") none span

/-- A list with one more element in front. -/
def cons (head tail : Expr π) (span : Span) : Expr π :=
  construct (.simple "::") (some (tuple [head, tail] span)) span

/-- The list of the given elements. -/
def list (elements : List (Expr π)) (span : Span) : Expr π :=
  elements.foldr (fun head tail => cons head tail span) (nil span)

/-- A tag of a polymorphic variant, perhaps with an argument. -/
def variant (tag : String) (arg : Option (Expr π)) (span : Span) : Expr π :=
  bare (.variant tag arg) span

/-- A record with the given fields. -/
def record (fields : List (QualName × Expr π)) (span : Span) : Expr π :=
  bare (.record (fields.map fun field => (⟨field.1, span⟩, field.2)) none) span

/-- An application to labelled arguments. -/
def applyLabelled (function : Expr π) (args : List (ArgLabel × Expr π)) (span : Span) : Expr π :=
  bare (.apply function args) span

/-- An application by position; the function itself if there are no arguments. -/
def apply (function : Expr π) (args : List (Expr π)) (span : Span) : Expr π :=
  if args.isEmpty then function
  else applyLabelled function (args.map fun arg => (.positional, arg)) span

/-- A function of one argument passed by position. -/
def lambda (param : Pattern π) (body : Expr π) (span : Span) : Expr π :=
  bare (.lambda .positional none param body) span

/-- A function defined by cases. -/
def function (cases : List (Case π)) (span : Span) : Expr π := bare (.function cases) span

/-- A match. -/
def matchWith (scrutinee : Expr π) (cases : List (Case π)) (span : Span) : Expr π :=
  bare (.matchWith scrutinee cases) span

/-- Local bindings around a body. -/
def letIn (recursion : Recursion) (bindings : List (Binding π)) (body : Expr π) (span : Span) :
    Expr π :=
  bare (.letIn recursion bindings body) span

/-- Two expressions evaluated in order. -/
def sequence (first second : Expr π) (span : Span) : Expr π := bare (.sequence first second) span

/-- A field of a record. -/
def field (record : Expr π) (label : QualName) (span : Span) : Expr π :=
  bare (.field record ⟨label, span⟩) span

/-- A conditional. -/
def ifThenElse (condition onTrue : Expr π) (onFalse : Option (Expr π)) (span : Span) : Expr π :=
  bare (.ifThenElse condition onTrue onFalse) span

/-- An expression with a type written on it. -/
def constraint (expr : Expr π) (type : TypeExpr π) (span : Span) : Expr π :=
  bare (.constraint expr type) span

/-- A module opened around a body. -/
def openIn (decl : OpenDecl π) (body : Expr π) (span : Span) : Expr π :=
  bare (.openIn decl body) span

/-- An extension node in the place of an expression. -/
def extension (ext : Extension π) (span : Span) : Expr π := bare (.extension ext) span

/-- The expression with other attributes. -/
def withAttributes (expr : Expr π) (attributes : List (Attribute π)) : Expr π :=
  { expr with attributes }

end Expr

/-- A case without a guard. -/
def Case.plain (pattern : Pattern π) (body : Expr π) : Case π := ⟨pattern, none, body⟩

/-- A binding without attributes. -/
def Binding.bare (pattern : Pattern π) (expr : Expr π) (span : Span) : Binding π :=
  ⟨pattern, expr, [], span⟩

/-- The opening of the module called `module`. -/
def OpenDecl.bare (module : QualName) (override : Bool) (span : Span) : OpenDecl π :=
  ⟨⟨module, span⟩, override, [], span⟩

end DeriveKit
