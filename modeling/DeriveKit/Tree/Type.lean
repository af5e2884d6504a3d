import DeriveKit.Source.QualName
import DeriveKit.Tree.Attribute

/-!
# DeriveKit.Tree.Type

Type expressions and the rows of polymorphic variants. A `TypeExpr` is a `TypeShape` with a place
and attributes, and a `Row` is a `RowShape` with the same. `Openness` and the list of tags that must
be there say the bounds of a variant. The short forms for building types, such as `TypeExpr.var` and
`TypeExpr.constr`, make nodes without attributes.
-/

namespace DeriveKit

/-- How an argument is passed: by position, under a label, or under a label that may be left out. -/
inductive ArgLabel
  | positional
  | labelled (label : String)
  | optional (label : String)
deriving DecidableEq, Repr

/-- Whether the members listed are all there are. -/
inductive Openness
  | closed
  | extensible
deriving DecidableEq, Repr

mutual

/-- A type expression, where it stands, and its attributes. -/
structure TypeExpr (π : Type) where
  shape : TypeShape π
  span : Span
  attributes : List (Attribute π)

/-- The forms of a type expression. -/
inductive TypeShape (π : Type)
  | any
  | var (name : String)
  | arrow (label : ArgLabel) (domain codomain : TypeExpr π)
  | tuple (elements : List (TypeExpr π))
  | constr (name : Located QualName) (args : List (TypeExpr π))
  | object (methods : List (Located String × TypeExpr π)) (openness : Openness)
  | aliased (body : TypeExpr π) (name : Located String)
  | variant (rows : List (Row π)) (openness : Openness) (lower : Option (List String))
  | poly (vars : List (Located String)) (body : TypeExpr π)
  | package (name : Located QualName)
  | extension (ext : Extension π)

/-- One row of a polymorphic variant, where it stands, and its attributes. -/
structure Row (π : Type) where
  shape : RowShape π
  span : Span
  attributes : List (Attribute π)

/-- A row lists a tag with its possible arguments (`constant` if the tag alone is also a value), or
takes over all rows of another type. -/
inductive RowShape (π : Type)
  | tag (label : Located String) (constant : Bool) (args : List (TypeExpr π))
  | inherit (type : TypeExpr π)

end

variable {π : Type}

namespace TypeExpr

/-- A type expression without attributes. -/
def bare (shape : TypeShape π) (span : Span) : TypeExpr π := ⟨shape, span, []⟩

/-- The wildcard. -/
def any (span : Span) : TypeExpr π := bare .any span

/-- A type variable. -/
def var (name : String) (span : Span) : TypeExpr π := bare (.var name) span

/-- A function type whose argument is passed by position. -/
def arrow (domain codomain : TypeExpr π) (span : Span) : TypeExpr π :=
  bare (.arrow .positional domain codomain) span

/-- A product type. -/
def tuple (elements : List (TypeExpr π)) (span : Span) : TypeExpr π := bare (.tuple elements) span

/-- A type constructor applied to arguments. -/
def constr (name : QualName) (args : List (TypeExpr π)) (span : Span) : TypeExpr π :=
  bare (.constr ⟨name, span⟩ args) span

/-- A type constructor without arguments, its name written with dots. -/
def named (dotted : String) (span : Span) : TypeExpr π := constr (.ofDotted dotted) [] span

/-- A type with a name for itself. -/
def aliased (type : TypeExpr π) (name : String) (span : Span) : TypeExpr π :=
  bare (.aliased type ⟨name, span⟩) span

/-- A type quantified over variables. -/
def poly (vars : List String) (body : TypeExpr π) (span : Span) : TypeExpr π :=
  bare (.poly (vars.map fun v => ⟨v, span⟩) body) span

/-- A polymorphic variant without a lower bound. -/
def variant (rows : List (Row π)) (openness : Openness) (span : Span) : TypeExpr π :=
  bare (.variant rows openness none) span

/-- The type with other attributes. -/
def withAttributes (type : TypeExpr π) (attributes : List (Attribute π)) : TypeExpr π :=
  { type with attributes }

/-- The name of the type variable that this is, if it is one. -/
def varName? (type : TypeExpr π) : Option String :=
  match type.shape with
  | .var name => some name
  | _ => none

end TypeExpr

namespace Row

/-- A row for one tag; it is a value by itself exactly if it has no arguments. -/
def tag (label : String) (args : List (TypeExpr π)) (span : Span) : Row π :=
  ⟨.tag ⟨label, span⟩ args.isEmpty args, span, []⟩

/-- A row that takes over the rows of `type`. -/
def inherit (type : TypeExpr π) : Row π := ⟨.inherit type, type.span, []⟩

end Row

end DeriveKit
