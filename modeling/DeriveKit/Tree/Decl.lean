import DeriveKit.Tree.Type

/-!
# DeriveKit.Tree.Decl

Declarations of types (`TypeDecl`) and of values (`ValueDecl`), and type extensions
(`TypeExtension`), which add constructors to a type that was declared elsewhere. What a declaration
says of its type is a `TypeBody`; records and variants have their `Label`s and `Constructor`s there.
-/

namespace DeriveKit

/-- How a parameter may vary when its type is seen as a larger one. -/
inductive Variance
  | invariant
  | covariant
  | contravariant
deriving DecidableEq, Repr

/-- A formal parameter of a type. In a legal declaration `type` is a variable or a wildcard. -/
structure TypeParam (π : Type) where
  type : TypeExpr π
  variance : Variance

/-- A labelled field of a record type. -/
structure Label (π : Type) where
  name : Located String
  isMutable : Bool
  type : TypeExpr π
  attributes : List (Attribute π)
  span : Span

/-- What a constructor takes: a sequence of types, or fields of its own. -/
inductive ConstructorArgs (π : Type)
  | tuple (types : List (TypeExpr π))
  | record (labels : List (Label π))

/-- A constructor of a variant type, with its own result type if it restricts the parameters. -/
structure Constructor (π : Type) where
  name : Located String
  args : ConstructorArgs π
  result : Option (TypeExpr π)
  attributes : List (Attribute π)
  span : Span

/-- What is known of the values of a declared type. -/
inductive TypeBody (π : Type)
  | abstract
  | variant (constructors : List (Constructor π))
  | record (labels : List (Label π))
  | extensible

/-- One member of a group of type declarations. `manifest` is the type it is declared equal to. -/
structure TypeDecl (π : Type) where
  name : Located String
  params : List (TypeParam π)
  body : TypeBody π
  isPrivate : Bool
  manifest : Option (TypeExpr π)
  attributes : List (Attribute π)
  span : Span

/-- An added constructor is declared afresh, or is another name for an existing one. -/
inductive AddedBody (π : Type)
  | declared (args : ConstructorArgs π) (result : Option (TypeExpr π))
  | rebound (constructor : Located QualName)

/-- A constructor added to an extensible type. -/
structure AddedConstructor (π : Type) where
  name : Located String
  body : AddedBody π
  attributes : List (Attribute π)
  span : Span

/-- Constructors added to the extensible type called `path`. -/
structure TypeExtension (π : Type) where
  path : Located QualName
  params : List (TypeParam π)
  constructors : List (AddedConstructor π)
  isPrivate : Bool
  attributes : List (Attribute π)
  span : Span

/-- A value known by its type; one with `primitives` is implemented outside the language. -/
structure ValueDecl (π : Type) where
  name : Located String
  type : TypeExpr π
  primitives : List String
  attributes : List (Attribute π)
  span : Span

variable {π : Type}

/-- An invariant parameter that is a variable. -/
def TypeParam.var (name : String) (span : Span) : TypeParam π := ⟨.var name span, .invariant⟩

/-- An invariant parameter that is a wildcard. -/
def TypeParam.any (span : Span) : TypeParam π := ⟨.any span, .invariant⟩

/-- A field that cannot be assigned. -/
def Label.bare (name : String) (type : TypeExpr π) (span : Span) : Label π :=
  ⟨⟨name, span⟩, false, type, [], span⟩

/-- A constructor that takes a sequence of types. -/
def Constructor.tuple (name : String) (args : List (TypeExpr π)) (span : Span) : Constructor π :=
  ⟨⟨name, span⟩, .tuple args, none, [], span⟩

/-- An added constructor that takes a sequence of types. -/
def AddedConstructor.tuple (name : String) (args : List (TypeExpr π)) (span : Span) :
    AddedConstructor π :=
  ⟨⟨name, span⟩, .declared (.tuple args) none, [], span⟩

/-- The declaration of an abstract type without parameters. -/
def TypeDecl.abstract (name : String) (span : Span) : TypeDecl π :=
  ⟨⟨name, span⟩, [], .abstract, false, none, [], span⟩

/-- A public extension without parameters. -/
def TypeExtension.bare (path : QualName) (constructors : List (AddedConstructor π)) (span : Span) :
    TypeExtension π :=
  ⟨⟨path, span⟩, [], constructors, false, [], span⟩

end DeriveKit
