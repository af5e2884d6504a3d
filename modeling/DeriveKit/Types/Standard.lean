import DeriveKit.Tree.Type

/-!
# DeriveKit.Types.Standard

Taking the qualification of the standard library off type constructors
(`TypeExpr.unqualifyStandard`), so that they are found in the module that is opened around generated
code. A name is of the standard library if it stands directly in one of its two modules
(`QualName.isStandard`).
-/

namespace DeriveKit

/-- Whether the name is qualified by a name of the standard library and nothing else. -/
def QualName.isStandard (n : QualName) : Bool := n.path == ["Stdlib"] || n.path == ["Pervasives"]

/-- The name without the qualification of the standard library. -/
def QualName.unqualifyStandard (n : QualName) : QualName :=
  if n.isStandard then .simple n.last else n

variable {π : Type}

mutual

/-- Takes the qualification of the standard library off every type constructor in a type. -/
def TypeExpr.unqualifyStandard : TypeExpr π → TypeExpr π
  | ⟨shape, span, attributes⟩ => ⟨TypeShape.unqualifyStandard shape, span, attributes⟩

/-- Takes the qualification of the standard library off every type constructor in a form of type. -/
def TypeShape.unqualifyStandard : TypeShape π → TypeShape π
  | .any => .any
  | .var name => .var name
  | .arrow label domain codomain =>
      .arrow label (TypeExpr.unqualifyStandard domain) (TypeExpr.unqualifyStandard codomain)
  | .tuple elements => .tuple (TypeExpr.unqualifyStandardAll elements)
  | .constr name args =>
      .constr (name.map QualName.unqualifyStandard) (TypeExpr.unqualifyStandardAll args)
  | .object methods openness => .object (TypeExpr.unqualifyStandardMethods methods) openness
  | .aliased body name => .aliased (TypeExpr.unqualifyStandard body) name
  | .variant rows openness lower => .variant (Row.unqualifyStandardAll rows) openness lower
  | .poly vars body => .poly vars (TypeExpr.unqualifyStandard body)
  | .package name => .package name
  | .extension ext => .extension ext

/-- Takes the qualification of the standard library off every type constructor in types. -/
def TypeExpr.unqualifyStandardAll : List (TypeExpr π) → List (TypeExpr π)
  | [] => []
  | t :: rest => TypeExpr.unqualifyStandard t :: TypeExpr.unqualifyStandardAll rest

/-- Takes the qualification of the standard library off every type constructor in methods. -/
def TypeExpr.unqualifyStandardMethods :
    List (Located String × TypeExpr π) → List (Located String × TypeExpr π)
  | [] => []
  | (name, t) :: rest =>
      (name, TypeExpr.unqualifyStandard t) :: TypeExpr.unqualifyStandardMethods rest

/-- Takes the qualification of the standard library off every type constructor in rows. -/
def Row.unqualifyStandardAll : List (Row π) → List (Row π)
  | [] => []
  | ⟨.tag label constant args, span, attributes⟩ :: rest =>
      ⟨.tag label constant (TypeExpr.unqualifyStandardAll args), span, attributes⟩ ::
        Row.unqualifyStandardAll rest
  | ⟨.inherit t, span, attributes⟩ :: rest =>
      ⟨.inherit (TypeExpr.unqualifyStandard t), span, attributes⟩ :: Row.unqualifyStandardAll rest

end

end DeriveKit
