import DeriveKit.Tree.Payload

/-!
# DeriveKit.Argument.Attribute

Finding the attribute that is meant for a generator. The same attribute can be written with the name
of the generator before it, and with a mark before that; the most explicit spelling on a node is the
one that counts for all attributes of that generator on the node.
-/

namespace DeriveKit

variable {π : Type}

/-- Whether some attribute has a name that begins with `front`. -/
def Attribute.anyBegins (front : String) (attributes : List (Attribute π)) : Bool :=
  attributes.any fun a => front.toList.isPrefixOf a.name.value.toList

/-- How the attribute called `name` of a generator is spelled among `attributes`. -/
def Attribute.spelling (generator name : String) (attributes : List (Attribute π)) : String :=
  if anyBegins ("deriving." ++ generator ++ ".") attributes then
    "deriving." ++ generator ++ "." ++ name
  else if anyBegins (generator ++ ".") attributes then generator ++ "." ++ name
  else name

/-- The attribute called `name` for a generator: the first in the spelling that counts. -/
def Attribute.find? (generator name : String) (attributes : List (Attribute π)) :
    Option (Attribute π) :=
  attributes.find? fun a => a.name.value == spelling generator name attributes

/-- Whether there is an attribute called `name` for a generator. -/
def Attribute.isPresent (generator name : String) (attributes : List (Attribute π)) : Bool :=
  (find? generator name attributes).isSome

/-- An attribute that sets the warnings of what it is on. -/
def Attribute.warnings (flags : String) (span : Span) : Attribute Payload :=
  .withExpr "ocaml.warning" (.string flags span)

end DeriveKit
