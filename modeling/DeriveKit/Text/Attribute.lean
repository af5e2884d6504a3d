import DeriveKit.Text.Pieces
import DeriveKit.Tree.Attribute

/-!
# DeriveKit.Text.Attribute

Source text of attributes and extension nodes, given the text of their payloads. The marker says
what they belong to: one sign for a node, two for an item, three for an attribute by itself.
-/

namespace DeriveKit

variable {π : Type} (pay : π → String)

/-- Source text of an attribute. -/
def Attribute.render (marker : String) (a : Attribute π) : String :=
  "[" ++ marker ++ a.name.value ++ pay a.payload ++ "]"

/-- Source text of the attributes after a node or an item. -/
def Attribute.renderAll (marker : String) (attributes : List (Attribute π)) : String :=
  leadEach " " (attributes.map (Attribute.render pay marker))

/-- Source text of an extension node. -/
def Extension.render (marker : String) (x : Extension π) : String :=
  "[" ++ marker ++ x.name.value ++ pay x.payload ++ "]"

end DeriveKit
