import DeriveKit.Text.Pattern
import DeriveKit.Tree.Expr

/-!
# DeriveKit.Text.Expr

Source text of expressions, cases and bindings, given the text of payloads. The `ExprPosition` says
what may stand there without parentheses. A chain of list constructors without attributes that ends
in the empty list is written as a list literal (`ExprShape.renderElements?`); the attributes of the
pairs in the chain are not looked at.
-/

namespace DeriveKit

/-- The positions of an expression, from the one that admits any form to the narrowest. -/
inductive ExprPosition
  | top
  | element
  | operand
  | atom
deriving DecidableEq, Repr

namespace ExprPosition

/-- Whether a form without a closing sign of its own would reach too far. -/
def isNested : ExprPosition → Bool
  | top => false
  | element | operand | atom => true

/-- Whether an application would be taken apart there. -/
def splitsApply : ExprPosition → Bool
  | top | element => false
  | operand | atom => true

end ExprPosition

/-- The word after `let` in a recursive group. -/
def Recursion.text : Recursion → String
  | .recursive => "rec "
  | .nonrecursive => ""

/-- The label before an argument of an application or before a parameter. -/
def ArgLabel.argText : ArgLabel → String
  | .positional => ""
  | .labelled label => "~" ++ label ++ ":"
  | .optional label => "?" ++ label ++ ":"

variable {π : Type}

/-- Source text of the opening of a module around an expression. -/
def OpenDecl.renderLocal (pay : π → String) (decl : OpenDecl π) : String :=
  "let open" ++ (if decl.override then "!" else "") ++
    joinAll (decl.attributes.map (Attribute.render pay "@")) ++ " " ++ decl.module.value.text ++
    " in "

mutual

/-- Source text of an expression in a position. -/
def Expr.render (pay : π → String) (position : ExprPosition) : Expr π → String
  | ⟨shape, _, []⟩ =>
      match ExprShape.renderElements? pay shape with
      | some elements => "[" ++ joinWith "; " elements ++ "]"
      | none => ExprShape.render pay position shape
  | ⟨shape, _, a :: rest⟩ =>
      "(" ++ ExprShape.render pay .top shape ++ Attribute.renderAll pay "@" (a :: rest) ++ ")"

/-- Source texts of the elements, if the form is that of a list literal. -/
def ExprShape.renderElements? (pay : π → String) : ExprShape π → Option (List String)
  | .construct name none => if name.value.isNil then some [] else none
  | .construct name (some ⟨.tuple [head, ⟨tail, _, []⟩], _, _⟩) =>
      if name.value.isCons then
        match ExprShape.renderElements? pay tail with
        | some rest => some (Expr.render pay .element head :: rest)
        | none => none
      else none
  | _ => none

/-- Source text of a form of expression in a position, other than a list literal. -/
def ExprShape.render (pay : π → String) (position : ExprPosition) : ExprShape π → String
  | .ident name => name.value.text
  | .constant value => parens (position.splitsApply && value.isNegative) value.text
  | .letIn recursion bindings body =>
      parens position.isNested
        ("let " ++ recursion.text ++ joinWith " and " (Binding.renderAll pay bindings) ++ " in " ++
          Expr.render pay .top body)
  | .function cases => parens position.isNested ("function" ++ Case.renderAll pay cases)
  | .lambda label default param body =>
      parens position.isNested
        ("fun " ++ label.argText ++ Expr.renderParam pay label (param.render pay true)
          (param.render pay false) default ++ " -> " ++ Expr.render pay .top body)
  | .apply function args =>
      parens position.splitsApply
        (Expr.render pay .atom function ++ leadEach " " (Expr.renderArgs pay args))
  | .matchWith scrutinee cases =>
      parens position.isNested
        ("match " ++ Expr.render pay .top scrutinee ++ " with" ++ Case.renderAll pay cases)
  | .tuple elements => "(" ++ joinWith ", " (Expr.renderAll pay elements) ++ ")"
  | .construct name none => name.value.text
  | .construct name (some arg) =>
      parens position.splitsApply
        (match name.value.isCons, Expr.renderCons? pay arg with
        | true, some s => s
        | _, _ => name.value.text ++ " " ++ Expr.render pay .atom arg)
  | .variant tag none => "`" ++ tag
  | .variant tag (some arg) =>
      parens position.splitsApply ("`" ++ tag ++ " " ++ Expr.render pay .atom arg)
  | .record fields none => "\x7b " ++ joinWith "; " (Expr.renderFields pay fields) ++ " \x7d"
  | .record fields (some base) =>
      "\x7b " ++ Expr.render pay .atom base ++ " with " ++
        joinWith "; " (Expr.renderFields pay fields) ++ " \x7d"
  | .field record label => Expr.render pay .atom record ++ "." ++ label.value.text
  | .ifThenElse condition onTrue none =>
      parens position.isNested
        ("if " ++ Expr.render pay .top condition ++ " then " ++ Expr.render pay .element onTrue)
  | .ifThenElse condition onTrue (some onFalse) =>
      parens position.isNested
        ("if " ++ Expr.render pay .top condition ++ " then " ++ Expr.render pay .element onTrue ++
          " else " ++ Expr.render pay .element onFalse)
  | .sequence first second =>
      parens position.isNested
        (Expr.render pay .element first ++ "; " ++ Expr.render pay .top second)
  | .constraint expr type =>
      "(" ++ Expr.render pay .top expr ++ " : " ++ type.render pay .top ++ ")"
  | .openIn decl body =>
      parens position.isNested (decl.renderLocal pay ++ Expr.render pay .top body)
  | .extension ext => ext.render pay "%"

/-- Source text of a head and a tail, if the expression is a pair of them without attributes. -/
def Expr.renderCons? (pay : π → String) : Expr π → Option String
  | ⟨.tuple [head, tail], _, []⟩ =>
      some (Expr.render pay .atom head ++ " :: " ++ Expr.render pay .element tail)
  | _ => none

/-- Source texts of expressions with separators around them. -/
def Expr.renderAll (pay : π → String) : List (Expr π) → List String
  | [] => []
  | e :: rest => Expr.render pay .element e :: Expr.renderAll pay rest

/-- Source texts of arguments. -/
def Expr.renderArgs (pay : π → String) : List (ArgLabel × Expr π) → List String
  | [] => []
  | (label, e) :: rest =>
      (label.argText ++ Expr.render pay .atom e) :: Expr.renderArgs pay rest

/-- Source texts of the fields of a record. -/
def Expr.renderFields (pay : π → String) : List (Located QualName × Expr π) → List String
  | [] => []
  | (label, e) :: rest =>
      (label.value.text ++ " = " ++ Expr.render pay .element e) :: Expr.renderFields pay rest

/-- Source text of a parameter after its label. Only an optional one shows its default. -/
def Expr.renderParam (pay : π → String) (label : ArgLabel) (nested plain : String) :
    Option (Expr π) → String
  | none => nested
  | some default =>
      match label with
      | .optional _ => "(" ++ plain ++ " = " ++ Expr.render pay .top default ++ ")"
      | .positional | .labelled _ => nested

/-- Source text of cases, each with a bar before it. Only the last one may end in a form that would
swallow the cases after it. -/
def Case.renderAll (pay : π → String) : List (Case π) → String
  | [] => ""
  | [c] => " | " ++ Case.render pay .top c
  | c :: d :: rest => " | " ++ Case.render pay .element c ++ Case.renderAll pay (d :: rest)

/-- Source text of a case whose body stands in the given position. -/
def Case.render (pay : π → String) (position : ExprPosition) : Case π → String
  | ⟨pattern, none, body⟩ => pattern.render pay false ++ " -> " ++ Expr.render pay position body
  | ⟨pattern, some guard, body⟩ =>
      pattern.render pay false ++ " when " ++ Expr.render pay .top guard ++ " -> " ++
        Expr.render pay position body

/-- Source texts of bindings. -/
def Binding.renderAll (pay : π → String) : List (Binding π) → List String
  | [] => []
  | ⟨pattern, expr, attributes, _⟩ :: rest =>
      (pattern.render pay false ++ " = " ++ Expr.render pay .top expr ++
        Attribute.renderAll pay "@@" attributes) :: Binding.renderAll pay rest

end

theorem Expr.renderAll_eq_map (pay : π → String) (es : List (Expr π)) :
    Expr.renderAll pay es = es.map (Expr.render pay .element) := by
  induction es with
  | nil => rfl
  | cons e es ih => rw [Expr.renderAll, ih, List.map_cons]

theorem Expr.renderArgs_eq_map (pay : π → String) (args : List (ArgLabel × Expr π)) :
    Expr.renderArgs pay args = args.map fun a => a.1.argText ++ Expr.render pay .atom a.2 := by
  induction args with
  | nil => rfl
  | cons a args ih => rw [Expr.renderArgs, ih, List.map_cons]

theorem Expr.renderFields_eq_map (pay : π → String) (fields : List (Located QualName × Expr π)) :
    Expr.renderFields pay fields =
      fields.map fun f => f.1.value.text ++ " = " ++ Expr.render pay .element f.2 := by
  induction fields with
  | nil => rfl
  | cons f fields ih => rw [Expr.renderFields, ih, List.map_cons]

theorem Binding.renderAll_eq_map (pay : π → String) (bindings : List (Binding π)) :
    Binding.renderAll pay bindings = bindings.map fun b =>
      b.pattern.render pay false ++ " = " ++ Expr.render pay .top b.expr ++
        Attribute.renderAll pay "@@" b.attributes := by
  induction bindings with
  | nil => rfl
  | cons b bindings ih =>
      obtain ⟨pattern, expr, attributes, span⟩ := b
      rw [Binding.renderAll, ih, List.map_cons]

/-- Source text of a group of bindings. -/
def Binding.renderGroup (pay : π → String) (bindings : List (Binding π)) : String :=
  joinWith " and " (Binding.renderAll pay bindings)

end DeriveKit
