import DeriveKit.Tree.Type

/-!
# DeriveKit.Tree.Pattern

Literal constants (`Constant`) and patterns. A `Pattern` is a `PatternShape` with a place and
attributes; the constructors of shapes have the patterns inside them as arguments. The short forms
for building patterns, such as `Pattern.var` and `Pattern.construct`, make nodes without attributes.
-/

namespace DeriveKit

/-- A literal. Numbers keep the text they were written with, and strings the delimiter of the
quoted form if they were written in it. -/
inductive Constant
  | integer (text : String) (suffix : Option Char)
  | char (value : Char)
  | string (value : String) (delimiter : Option String)
  | float (text : String) (suffix : Option Char)
deriving DecidableEq, Repr

mutual

/-- A pattern, where it stands, and its attributes. -/
structure Pattern (π : Type) where
  shape : PatternShape π
  span : Span
  attributes : List (Attribute π)

/-- The forms of a pattern. -/
inductive PatternShape (π : Type)
  | any
  | var (name : Located String)
  | aliased (pattern : Pattern π) (name : Located String)
  | constant (value : Constant)
  | tuple (elements : List (Pattern π))
  | construct (name : Located QualName) (arg : Option (Pattern π))
  | variant (tag : String) (arg : Option (Pattern π))
  | record (fields : List (Located QualName × Pattern π)) (openness : Openness)
  | either (left right : Pattern π)
  | constraint (pattern : Pattern π) (type : TypeExpr π)

end

namespace Pattern

variable {π : Type}

/-- A pattern without attributes. -/
def bare (shape : PatternShape π) (span : Span) : Pattern π := ⟨shape, span, []⟩

/-- The wildcard. -/
def any (span : Span) : Pattern π := bare .any span

/-- A pattern that binds a variable. -/
def var (name : String) (span : Span) : Pattern π := bare (.var ⟨name, span⟩) span

/-- A constructor pattern. -/
def construct (name : QualName) (arg : Option (Pattern π)) (span : Span) : Pattern π :=
  bare (.construct ⟨name, span⟩ arg) span

/-- The pattern of the unit value. -/
def unit (span : Span) : Pattern π := construct (.simple "()") none span

/-- A tuple pattern. -/
def tuple (elements : List (Pattern π)) (span : Span) : Pattern π := bare (.tuple elements) span

/-- A pattern with a type written on it. -/
def constraint (pattern : Pattern π) (type : TypeExpr π) (span : Span) : Pattern π :=
  bare (.constraint pattern type) span

end Pattern

end DeriveKit
