import DeriveKit.Naming.Letters
import DeriveKit.Tree.Decl
import DeriveKit.Tree.Expr

/-!
# DeriveKit.Types.Params

The parameters of a declaration. Generated code takes one more argument for each named parameter;
the functions here write the parameters, the arguments and the types of such code, in one order.
Wildcards are passed over, and any other parameter is an error that carries it.
-/

namespace DeriveKit

variable {π : Type}

/-- The name of a parameter, or none for a wildcard. -/
def TypeParam.name? (param : TypeParam π) : Except (TypeExpr π) (Option String) :=
  match param.type.shape with
  | .any => .ok none
  | .var name => .ok (some name)
  | _ => .error param.type

namespace TypeParam

/-- The names of parameters, from left to right. -/
def names : List (TypeParam π) → Except (TypeExpr π) (List String)
  | [] => .ok []
  | param :: rest => do
    match ← param.name? with
    | none => names rest
    | some name => return name :: (← names rest)

/-- Goes through the names of parameters from left to right. -/
def foldNames {β : Type} (f : β → String → β) (start : β) (params : List (TypeParam π)) :
    Except (TypeExpr π) β :=
  return (← names params).foldl f start

/-- Goes through the names of parameters from right to left. -/
def foldNamesBack {β : Type} (f : String → β → β) (start : β) (params : List (TypeParam π)) :
    Except (TypeExpr π) β :=
  foldNames (fun acc name => f name acc) start params.reverse

/-- The name of the argument for a parameter. -/
def argName (name : String) : String := "poly_" ++ name

/-- A function of the arguments for the parameters. -/
def abstracted (params : List (TypeParam π)) (e : Expr π) : Except (TypeExpr π) (Expr π) :=
  foldNamesBack (fun name body => .lambda (.var (argName name) e.span) body e.span) e params

/-- An application to the arguments for the parameters. -/
def applied (params : List (TypeParam π)) (e : Expr π) : Except (TypeExpr π) (Expr π) :=
  return .apply e ((← names params).map fun name => .var (argName name) e.span) e.span

/-- A function type from what `transform` makes of each parameter to a type. -/
def arrows (transform : TypeExpr π → TypeExpr π) (params : List (TypeParam π)) (t : TypeExpr π) :
    Except (TypeExpr π) (TypeExpr π) :=
  foldNamesBack (fun name result => .arrow (transform (.var name t.span)) result t.span) t params

end TypeParam

/-- The declared type, applied to its parameters. -/
def TypeDecl.self (decl : TypeDecl π) : TypeExpr π :=
  .constr (.simple decl.name.value) (decl.params.map (·.type)) decl.span

/-- The extended type, applied to the parameters of the extension. -/
def TypeExtension.self (ext : TypeExtension π) : TypeExpr π :=
  .constr ext.path.value (ext.params.map (·.type)) ext.span

/-- Parameters with fresh names in the place of the named ones, the fresh names in order, and all
names that are bound then. -/
def TypeParam.refresh (bound : List String) :
    List (TypeParam π) → Except (TypeExpr π) (List (TypeParam π) × List String × List String)
  | [] => .ok ([], [], bound)
  | param :: rest => do
    match ← param.name? with
    | none =>
        let (params, names, bound) ← refresh bound rest
        return (param :: params, names, bound)
    | some _ =>
        let name := freshName bound
        let (params, names, bound) ← refresh (bound ++ [name]) rest
        return ({ param with type := .var name param.type.span } :: params, name :: names, bound)

/-- What a declared type is when it is applied to fresh variables: the type, the variables in the
order of the parameters, and the names that are bound with them. -/
structure Instantiation (π : Type) where
  type : TypeExpr π
  vars : List String
  bound : List String

/-- Applies a declared type to variables that are not in `bound`; wildcards stay. -/
def TypeDecl.instantiation (bound : List String) (decl : TypeDecl π) :
    Except (TypeExpr π) (Instantiation π) := do
  let (params, vars, bound) ← TypeParam.refresh bound decl.params
  return ⟨{ decl with params }.self, vars, bound⟩

/-- A declared type applied to fresh variables, and the variables, for callers that take no more
names after these. -/
def TypeDecl.instantiate (bound : List String) (decl : TypeDecl π) :
    Except (TypeExpr π) (TypeExpr π × List String) := do
  let instantiation ← decl.instantiation bound
  return (instantiation.type, instantiation.vars)

end DeriveKit
