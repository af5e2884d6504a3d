import DeriveKit.Text.Attribute
import DeriveKit.Text.Literal

/-!
# DeriveKit.Text.Type

Source text of type expressions and rows, given the text of payloads. A form that could be read
otherwise in its position (`TypePosition`) stands in parentheses, and so does every type with
attributes. `boundText` and `lowerText` are what stands at the two ends of a variant.
-/

namespace DeriveKit

/-- The positions of a type expression, from the one that admits any form to the narrowest. -/
inductive TypePosition
  | top
  | domain
  | element
  | argument
deriving DecidableEq, Repr

namespace TypePosition

/-- Whether some form is cut off by what stands around it. -/
def isNested : TypePosition → Bool
  | top => false
  | domain | element | argument => true

/-- Whether a product would be taken apart there. -/
def splitsProduct : TypePosition → Bool
  | top | domain => false
  | element | argument => true

end TypePosition

/-- The label before the domain of a function type. -/
def ArgLabel.typeText : ArgLabel → String
  | .positional => ""
  | .labelled label => label ++ ":"
  | .optional label => "?" ++ label ++ ":"

/-- The sign after the opening bracket of a polymorphic variant: which rows it may still have. -/
def boundText : Openness → Option (List String) → String
  | .extensible, _ => ">"
  | .closed, some _ => "<"
  | .closed, none => ""

/-- The tags that a polymorphic variant has at least. -/
def lowerText : Option (List String) → String
  | none | some [] => ""
  | some (tag :: rest) => " >" ++ leadEach " `" (tag :: rest)

/-- What follows the methods of an object type that may have others. -/
def Openness.memberTexts : Openness → List String
  | .closed => []
  | .extensible => [".."]

variable {π : Type}

mutual

/-- Source text of a type expression in a position. -/
def TypeExpr.render (pay : π → String) (position : TypePosition) : TypeExpr π → String
  | ⟨shape, _, []⟩ => TypeShape.render pay position shape
  | ⟨shape, _, a :: rest⟩ =>
      "(" ++ TypeShape.render pay .top shape ++ Attribute.renderAll pay "@" (a :: rest) ++ ")"

/-- Source text of a form of type in a position. -/
def TypeShape.render (pay : π → String) (position : TypePosition) : TypeShape π → String
  | .any => "_"
  | .var name => "'" ++ name
  | .arrow label domain codomain =>
      parens position.isNested
        (label.typeText ++ TypeExpr.render pay .domain domain ++ " -> " ++
          TypeExpr.render pay .top codomain)
  | .tuple elements =>
      parens position.splitsProduct (joinWith " * " (TypeExpr.renderAll pay .element elements))
  | .constr name [] => name.value.text
  | .constr name [arg] => TypeExpr.render pay .argument arg ++ " " ++ name.value.text
  | .constr name args =>
      "(" ++ joinWith ", " (TypeExpr.renderAll pay .top args) ++ ") " ++ name.value.text
  | .object methods openness =>
      let members := TypeExpr.renderMethods pay methods ++ openness.memberTexts
      "<" ++ (if members.isEmpty then "" else " " ++ joinWith "; " members) ++ " >"
  | .aliased body name =>
      parens position.isNested (TypeExpr.render pay .domain body ++ " as '" ++ name.value)
  | .variant rows openness lower =>
      "[" ++ boundText openness lower ++ " " ++ joinWith " | " (Row.renderAll pay rows) ++
        lowerText lower ++ " ]"
  | .poly [] body => TypeExpr.render pay position body
  | .poly vars body =>
      parens position.isNested
        (joinWith " " (vars.map fun v => "'" ++ v.value) ++ ". " ++ TypeExpr.render pay .top body)
  | .package name => "(module " ++ name.value.text ++ ")"
  | .extension ext => ext.render pay "%"

/-- Source texts of type expressions, all in one position. -/
def TypeExpr.renderAll (pay : π → String) (position : TypePosition) :
    List (TypeExpr π) → List String
  | [] => []
  | t :: rest => TypeExpr.render pay position t :: TypeExpr.renderAll pay position rest

/-- Source texts of the methods of an object type. -/
def TypeExpr.renderMethods (pay : π → String) : List (Located String × TypeExpr π) → List String
  | [] => []
  | (name, t) :: rest =>
      (name.value ++ " : " ++ TypeExpr.render pay .top t) :: TypeExpr.renderMethods pay rest

/-- Source text of a row. -/
def Row.render (pay : π → String) : Row π → String
  | ⟨.tag label _ [], _, attributes⟩ => "`" ++ label.value ++ Attribute.renderAll pay "@" attributes
  | ⟨.tag label constant args, _, attributes⟩ =>
      "`" ++ label.value ++ (if constant then " of & " else " of ") ++
        joinWith " & " (TypeExpr.renderAll pay .domain args) ++
        Attribute.renderAll pay "@" attributes
  | ⟨.inherit t, _, attributes⟩ =>
      TypeExpr.render pay .top t ++ Attribute.renderAll pay "@" attributes

/-- Source texts of rows. -/
def Row.renderAll (pay : π → String) : List (Row π) → List String
  | [] => []
  | r :: rest => Row.render pay r :: Row.renderAll pay rest

end

theorem TypeExpr.renderAll_eq_map (pay : π → String) (position : TypePosition)
    (ts : List (TypeExpr π)) :
    TypeExpr.renderAll pay position ts = ts.map (TypeExpr.render pay position) := by
  induction ts with
  | nil => rfl
  | cons t ts ih => rw [TypeExpr.renderAll, ih, List.map_cons]

theorem TypeExpr.renderMethods_eq_map (pay : π → String) (ms : List (Located String × TypeExpr π)) :
    TypeExpr.renderMethods pay ms =
      ms.map fun m => m.1.value ++ " : " ++ TypeExpr.render pay .top m.2 := by
  induction ms with
  | nil => rfl
  | cons m ms ih => rw [TypeExpr.renderMethods, ih, List.map_cons]

theorem Row.renderAll_eq_map (pay : π → String) (rs : List (Row π)) :
    Row.renderAll pay rs = rs.map (Row.render pay) := by
  induction rs with
  | nil => rfl
  | cons r rs ih => rw [Row.renderAll, ih, List.map_cons]

end DeriveKit
