import DeriveKit.Text.Type
import DeriveKit.Tree.Decl

/-!
# DeriveKit.Text.Decl

Source text of declarations of types and values, given the text of payloads. A group is written with
`and` between its members (`TypeDecl.renderGroup`); what a declaration does not say is left out with
the sign before it (`TypeBody.render?`).
-/

namespace DeriveKit

variable {π : Type} (pay : π → String)

/-- The sign before a parameter. -/
def Variance.text : Variance → String
  | .invariant => ""
  | .covariant => "+"
  | .contravariant => "-"

/-- Source text of a parameter. -/
def TypeParam.render (param : TypeParam π) : String :=
  param.variance.text ++ param.type.render pay .argument

/-- Source text of the parameters before the name of a type. -/
def TypeParam.renderAll : List (TypeParam π) → String
  | [] => ""
  | [param] => param.render pay ++ " "
  | params => "(" ++ joinWith ", " (params.map (TypeParam.render pay)) ++ ") "

/-- The word before the body of a private declaration. -/
def privateText (isPrivate : Bool) : String := if isPrivate then "private " else ""

/-- Source text of a labelled field. -/
def Label.render (label : Label π) : String :=
  (if label.isMutable then "mutable " else "") ++ label.name.value ++ " : " ++
    label.type.render pay .top ++ Attribute.renderAll pay "@" label.attributes

/-- Source text of the fields of a record type. -/
def Label.renderRecord (labels : List (Label π)) : String :=
  "\x7b " ++ joinWith "; " (labels.map (Label.render pay)) ++ " \x7d"

namespace ConstructorArgs

/-- Whether a constructor takes anything at all. -/
def isPresent : ConstructorArgs π → Bool
  | .tuple types => !types.isEmpty
  | .record _ => true

/-- Source text of what a constructor takes. -/
def render : ConstructorArgs π → String
  | .tuple types => joinWith " * " (types.map (TypeExpr.render pay .element))
  | .record labels => Label.renderRecord pay labels

/-- Source text of what a constructor takes and of its own result type, with the signs before. -/
def renderTyped (args : ConstructorArgs π) : Option (TypeExpr π) → String
  | none => if args.isPresent then " of " ++ args.render pay else ""
  | some result =>
      " : " ++ (if args.isPresent then args.render pay ++ " -> " else "") ++
        result.render pay .domain

end ConstructorArgs

/-- Source text of a constructor. -/
def Constructor.render (c : Constructor π) : String :=
  c.name.value ++ c.args.renderTyped pay c.result ++ Attribute.renderAll pay "@" c.attributes

/-- Source text of the body of a declaration, if it has one. -/
def TypeBody.render? : TypeBody π → Option String
  | .abstract => none
  | .variant constructors => some (joinWith " | " (constructors.map (Constructor.render pay)))
  | .record labels => some (Label.renderRecord pay labels)
  | .extensible => some ".."

/-- Source text of a declaration, without the word that begins the group. A private declaration
says so before its body, and before the type it equals if it has no body. -/
def TypeDecl.renderBody (decl : TypeDecl π) : String :=
  let body := decl.body.render? pay
  let manifest := match decl.manifest, body with
    | none, _ => ""
    | some type, none => " = " ++ privateText decl.isPrivate ++ type.render pay .top
    | some type, some _ => " = " ++ type.render pay .top
  TypeParam.renderAll pay decl.params ++ decl.name.value ++ manifest ++
    (match body with
    | none => ""
    | some s => " = " ++ privateText decl.isPrivate ++ s) ++
    Attribute.renderAll pay "@@" decl.attributes

/-- Source text of a declaration by itself. -/
def TypeDecl.render (decl : TypeDecl π) : String := "type " ++ decl.renderBody pay

/-- Source text of a group of declarations. -/
def TypeDecl.renderGroup (nonrecursive : Bool) : List (TypeDecl π) → String
  | [] => ""
  | decls =>
      "type " ++ (if nonrecursive then "nonrec " else "") ++
        joinWith " and " (decls.map (TypeDecl.renderBody pay))

/-- Source text of an added constructor. -/
def AddedConstructor.render (c : AddedConstructor π) : String :=
  c.name.value ++
    (match c.body with
    | .declared args result => args.renderTyped pay result
    | .rebound name => " = " ++ name.value.text) ++
    Attribute.renderAll pay "@" c.attributes

/-- Source text of a type extension. -/
def TypeExtension.render (ext : TypeExtension π) : String :=
  "type " ++ TypeParam.renderAll pay ext.params ++ ext.path.value.text ++ " += " ++
    privateText ext.isPrivate ++
    joinWith " | " (ext.constructors.map (AddedConstructor.render pay)) ++
    Attribute.renderAll pay "@@" ext.attributes

/-- Source text of the declaration of a value. -/
def ValueDecl.render (decl : ValueDecl π) : String :=
  (if decl.primitives.isEmpty then "val " else "external ") ++ decl.name.value ++ " : " ++
    decl.type.render pay .top ++
    (if decl.primitives.isEmpty then ""
    else " =" ++ leadEach " " (decl.primitives.map (quoted '"'))) ++
    Attribute.renderAll pay "@@" decl.attributes

end DeriveKit
