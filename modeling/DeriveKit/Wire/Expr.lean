import DeriveKit.Tree.Expr
import DeriveKit.Wire.Pattern

/-!
# DeriveKit.Wire.Expr

Expressions, cases and bindings in the exchange format, given a format for payloads. Lists of parts
have writers of their own (`Expr.encodeItems`, `Expr.encodeArgs`, `Expr.encodeFields`), because the
recursion goes through them; `Expr.decode` is given a bound on the depth instead.
-/

namespace DeriveKit

namespace Recursion

/-- Whether a group is recursive, as a choice. -/
def encode : Recursion → Data
  | nonrecursive => .string "Nonrecursive"
  | recursive => .string "Recursive"

/-- Reads whether a group is recursive. -/
def decode : Data → Option Recursion :=
  Data.enum? [("Nonrecursive", nonrecursive), ("Recursive", recursive)]

end Recursion

/-- Whether an opening may shadow, as a choice. -/
def encodeOverride (override : Bool) : Data := .string (if override then "Override" else "Fresh")

/-- Reads whether an opening may shadow. -/
def decodeOverride : Data → Option Bool := Data.enum? [("Fresh", false), ("Override", true)]

variable {π : Type}

/-- An opening as a structure. -/
def OpenDecl.encode (pay : π → Data) (decl : OpenDecl π) : Data :=
  .object [("module", encodeQualName decl.module), ("override_flag", encodeOverride decl.override),
    ("attributes", Attribute.encodeAll pay decl.attributes), ("span", decl.span.encode)]

/-- Reads an opening. -/
def OpenDecl.decode (pay : Data → Option π) (d : Data) : Option (OpenDecl π) :=
  match d.fields? ["module", "override_flag", "attributes", "span"] with
  | some [module, override, attributes, span] =>
      return ⟨← decodeQualName module, ← decodeOverride override,
        ← Attribute.decodeAll pay attributes, ← Span.decode span⟩
  | _ => none

mutual

/-- An expression as a structure. -/
def Expr.encode (pay : π → Data) : Expr π → Data
  | ⟨shape, span, attributes⟩ =>
      .object [("kind", ExprShape.encode pay shape), ("span", span.encode),
        ("attributes", Attribute.encodeAll pay attributes)]

/-- A form of expression as a choice. -/
def ExprShape.encode (pay : π → Data) : ExprShape π → Data
  | .ident name => .choice "Ident" (encodeQualName name)
  | .constant value => .choice "Constant" value.encode
  | .letIn recursion bindings body =>
      .choice "Let" (.list
        [recursion.encode, .list (Binding.encodeItems pay bindings), Expr.encode pay body])
  | .function cases => .choice "Function" (.list (Case.encodeItems pay cases))
  | .lambda label default param body =>
      .choice "Fun" (.list
        [label.encode, Expr.encodeOption pay default, param.encode pay, Expr.encode pay body])
  | .apply function args =>
      .choice "Apply" (.list [Expr.encode pay function, .list (Expr.encodeArgs pay args)])
  | .matchWith scrutinee cases =>
      .choice "Match" (.list [Expr.encode pay scrutinee, .list (Case.encodeItems pay cases)])
  | .tuple elements => .choice "Tuple" (.list (Expr.encodeItems pay elements))
  | .construct name arg =>
      .choice "Construct" (.list [encodeQualName name, Expr.encodeOption pay arg])
  | .variant tag arg => .choice "Variant" (.list [.string tag, Expr.encodeOption pay arg])
  | .record fields base =>
      .choice "Record" (.list [.list (Expr.encodeFields pay fields), Expr.encodeOption pay base])
  | .field record label => .choice "Field" (.list [Expr.encode pay record, encodeQualName label])
  | .ifThenElse condition onTrue onFalse =>
      .choice "IfThenElse" (.list
        [Expr.encode pay condition, Expr.encode pay onTrue, Expr.encodeOption pay onFalse])
  | .sequence first second =>
      .choice "Sequence" (.list [Expr.encode pay first, Expr.encode pay second])
  | .constraint expr type => .choice "Constraint" (.list [Expr.encode pay expr, type.encode pay])
  | .openIn decl body => .choice "Open" (.list [decl.encode pay, Expr.encode pay body])
  | .extension ext => .choice "Extension" (ext.encode pay)

/-- The items of a list of expressions. -/
def Expr.encodeItems (pay : π → Data) : List (Expr π) → List Data
  | [] => []
  | e :: rest => Expr.encode pay e :: Expr.encodeItems pay rest

/-- An expression that may be absent. -/
def Expr.encodeOption (pay : π → Data) : Option (Expr π) → Data
  | none => .null
  | some e => Expr.encode pay e

/-- The items of a list of arguments. -/
def Expr.encodeArgs (pay : π → Data) : List (ArgLabel × Expr π) → List Data
  | [] => []
  | (label, e) :: rest => .list [label.encode, Expr.encode pay e] :: Expr.encodeArgs pay rest

/-- The items of a list of fields. -/
def Expr.encodeFields (pay : π → Data) : List (Located QualName × Expr π) → List Data
  | [] => []
  | (label, e) :: rest =>
      .list [encodeQualName label, Expr.encode pay e] :: Expr.encodeFields pay rest

/-- A case as a structure. -/
def Case.encode (pay : π → Data) : Case π → Data
  | ⟨pattern, guard, body⟩ =>
      .object [("lhs", pattern.encode pay), ("guard", Expr.encodeOption pay guard),
        ("rhs", Expr.encode pay body)]

/-- The items of a list of cases. -/
def Case.encodeItems (pay : π → Data) : List (Case π) → List Data
  | [] => []
  | c :: rest => Case.encode pay c :: Case.encodeItems pay rest

/-- A binding as a structure. -/
def Binding.encode (pay : π → Data) : Binding π → Data
  | ⟨pattern, expr, attributes, span⟩ =>
      .object [("pat", pattern.encode pay), ("expr", Expr.encode pay expr),
        ("attributes", Attribute.encodeAll pay attributes), ("span", span.encode)]

/-- The items of a list of bindings. -/
def Binding.encodeItems (pay : π → Data) : List (Binding π) → List Data
  | [] => []
  | b :: rest => Binding.encode pay b :: Binding.encodeItems pay rest

end

mutual

/-- Reads an expression. -/
def Expr.decode (pay : Data → Option π) : Nat → Data → Option (Expr π)
  | 0, _ => none
  | n + 1, d =>
      match d.fields? ["kind", "span", "attributes"] with
      | some [kind, span, attributes] =>
          return ⟨← ExprShape.decode pay n kind, ← Span.decode span,
            ← Attribute.decodeAll pay attributes⟩
      | _ => none

/-- Reads a form of expression. -/
def ExprShape.decode (pay : Data → Option π) : Nat → Data → Option (ExprShape π)
  | 0, _ => none
  | n + 1, d =>
      match d.choice? with
      | some ("Ident", name) => return .ident (← decodeQualName name)
      | some ("Constant", value) => return .constant (← Constant.decode value)
      | some ("Let", .list [recursion, bindings, body]) =>
          return .letIn (← Recursion.decode recursion) (← bindings.list? (Binding.decode pay n))
            (← Expr.decode pay n body)
      | some ("Function", cases) => return .function (← cases.list? (Case.decode pay n))
      | some ("Fun", .list [label, default, param, body]) =>
          return .lambda (← ArgLabel.decode label) (← default.option? (Expr.decode pay n))
            (← Pattern.decode pay n param) (← Expr.decode pay n body)
      | some ("Apply", .list [function, args]) =>
          return .apply (← Expr.decode pay n function)
            (← args.list? (Data.pair? ArgLabel.decode (Expr.decode pay n)))
      | some ("Match", .list [scrutinee, cases]) =>
          return .matchWith (← Expr.decode pay n scrutinee) (← cases.list? (Case.decode pay n))
      | some ("Tuple", elements) => return .tuple (← elements.list? (Expr.decode pay n))
      | some ("Construct", .list [name, arg]) =>
          return .construct (← decodeQualName name) (← arg.option? (Expr.decode pay n))
      | some ("Variant", .list [tag, arg]) =>
          return .variant (← tag.string?) (← arg.option? (Expr.decode pay n))
      | some ("Record", .list [fields, base]) =>
          return .record (← fields.list? (Data.pair? decodeQualName (Expr.decode pay n)))
            (← base.option? (Expr.decode pay n))
      | some ("Field", .list [record, label]) =>
          return .field (← Expr.decode pay n record) (← decodeQualName label)
      | some ("IfThenElse", .list [condition, onTrue, onFalse]) =>
          return .ifThenElse (← Expr.decode pay n condition) (← Expr.decode pay n onTrue)
            (← onFalse.option? (Expr.decode pay n))
      | some ("Sequence", .list [first, second]) =>
          return .sequence (← Expr.decode pay n first) (← Expr.decode pay n second)
      | some ("Constraint", .list [expr, type]) =>
          return .constraint (← Expr.decode pay n expr) (← TypeExpr.decode pay n type)
      | some ("Open", .list [decl, body]) =>
          return .openIn (← OpenDecl.decode pay decl) (← Expr.decode pay n body)
      | some ("Extension", ext) => return .extension (← Extension.decode pay ext)
      | _ => none

/-- Reads a case. -/
def Case.decode (pay : Data → Option π) : Nat → Data → Option (Case π)
  | 0, _ => none
  | n + 1, d =>
      match d.fields? ["lhs", "guard", "rhs"] with
      | some [pattern, guard, body] =>
          return ⟨← Pattern.decode pay n pattern, ← guard.option? (Expr.decode pay n),
            ← Expr.decode pay n body⟩
      | _ => none

/-- Reads a binding. -/
def Binding.decode (pay : Data → Option π) : Nat → Data → Option (Binding π)
  | 0, _ => none
  | n + 1, d =>
      match d.fields? ["pat", "expr", "attributes", "span"] with
      | some [pattern, expr, attributes, span] =>
          return ⟨← Pattern.decode pay n pattern, ← Expr.decode pay n expr,
            ← Attribute.decodeAll pay attributes, ← Span.decode span⟩
      | _ => none

end

end DeriveKit
