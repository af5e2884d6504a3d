import DeriveKit.Source.Span

/-!
# DeriveKit.Tree.Attribute

Attributes and extension nodes, for any type of payload. Every kind of syntax tree is a family
`T π` in the type `π` of the payloads that its attributes and extension nodes hold, so a function
that does not look into payloads says so in its type. `DeriveKit.Tree.Payload` closes the circle.
-/

namespace DeriveKit

/-- An attribute of a node or an item: a name and what is written after it. -/
structure Attribute (π : Type) where
  name : Located String
  payload : π
  span : Span
deriving DecidableEq

/-- A node that some extension gives a meaning to: a name and what is written after it. -/
structure Extension (π : Type) where
  name : Located String
  payload : π
deriving DecidableEq

/-- An attribute whose name stands where the whole attribute does. -/
def Attribute.named {π : Type} (name : String) (payload : π) (span : Span) : Attribute π :=
  ⟨⟨name, span⟩, payload, span⟩

/-- An extension node with the given place for its name. -/
def Extension.named {π : Type} (name : String) (payload : π) (span : Span) : Extension π :=
  ⟨⟨name, span⟩, payload⟩

end DeriveKit
