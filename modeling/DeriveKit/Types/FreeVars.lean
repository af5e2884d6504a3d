import DeriveKit.Tree.Type

/-!
# DeriveKit.Types.FreeVars

Free type variables, collected in one pass from left to right. The name of an alias comes before the
variables of the aliased type, and a quantifier binds its variables in its body. Object types,
module types and extension nodes have no set of variables: meeting one is an error that carries it.
-/

namespace DeriveKit

variable {π : Type}

/-- Adds a variable to those found so far, unless a quantifier binds it or it was found before. -/
def noteVar (bound : List String) (name : String) (found : List String) : List String :=
  if bound.contains name || found.contains name then found else found ++ [name]

mutual

/-- Adds the variables of a type that stands under quantifiers for `bound` to those found so far. -/
def TypeExpr.collect (bound : List String) :
    TypeExpr π → List String → Except (TypeExpr π) (List String)
  | ⟨.any, _, _⟩, found => .ok found
  | ⟨.var name, _, _⟩, found => .ok (noteVar bound name found)
  | ⟨.arrow _ domain codomain, _, _⟩, found => do
    let found ← TypeExpr.collect bound domain found
    TypeExpr.collect bound codomain found
  | ⟨.tuple elements, _, _⟩, found => TypeExpr.collectAll bound elements found
  | ⟨.constr _ args, _, _⟩, found => TypeExpr.collectAll bound args found
  | ⟨.aliased body name, _, _⟩, found =>
      TypeExpr.collect bound body (noteVar bound name.value found)
  | ⟨.variant rows _ _, _, _⟩, found => Row.collectAll bound rows found
  | ⟨.poly vars body, _, _⟩, found => TypeExpr.collect (bound ++ vars.map (·.value)) body found
  | ⟨.object methods openness, span, attributes⟩, _ =>
      .error ⟨.object methods openness, span, attributes⟩
  | ⟨.package name, span, attributes⟩, _ => .error ⟨.package name, span, attributes⟩
  | ⟨.extension ext, span, attributes⟩, _ => .error ⟨.extension ext, span, attributes⟩

/-- Adds the variables of types to those found so far. -/
def TypeExpr.collectAll (bound : List String) :
    List (TypeExpr π) → List String → Except (TypeExpr π) (List String)
  | [], found => .ok found
  | t :: rest, found => do
    let found ← TypeExpr.collect bound t found
    TypeExpr.collectAll bound rest found

/-- Adds the variables of rows to those found so far. -/
def Row.collectAll (bound : List String) :
    List (Row π) → List String → Except (TypeExpr π) (List String)
  | [], found => .ok found
  | ⟨.tag _ _ args, _, _⟩ :: rest, found => do
    let found ← TypeExpr.collectAll bound args found
    Row.collectAll bound rest found
  | ⟨.inherit t, _, _⟩ :: rest, found => do
    let found ← TypeExpr.collect bound t found
    Row.collectAll bound rest found

end

namespace TypeExpr

/-- The free variables of a type, each once, in the order of their first occurrence. -/
def freeVars (t : TypeExpr π) : Except (TypeExpr π) (List String) := t.collect [] []

/-- The type quantified over its free variables. -/
def closed (t : TypeExpr π) : Except (TypeExpr π) (TypeExpr π) :=
  return poly (← t.freeVars) t t.span

end TypeExpr

end DeriveKit
