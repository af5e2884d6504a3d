import DeriveKit.Text.Module
import DeriveKit.Tree.Payload

/-!
# DeriveKit.Text.Payload

Source text of payloads (`Payload.text`), and with it of every tree over payloads: `TypeExpr.text`,
`Expr.text`, `structureText` and the others put the text of payloads into the functions that take it
as an argument.
-/

namespace DeriveKit

/-- Source text of one level of payload, as it follows the name of an attribute. -/
def PayloadShape.render {π : Type} (pay : π → String) : PayloadShape π → String
  | .structure [] => ""
  | .structure items => " " ++ joinWith " " (StructureItem.renderAll pay items)
  | .signature items => ":" ++ leadEach " " (SignatureItem.renderAll pay items)
  | .type t => ": " ++ t.render pay .top
  | .pattern p none => "? " ++ p.render pay false
  | .pattern p (some guard) => "? " ++ p.render pay false ++ " when " ++ guard.render pay .top

/-- Source text of a payload. -/
def Payload.text : Payload → String := fold (PayloadShape.render id)

/-- Source text of an attribute of a node. -/
def Attribute.text (a : Attribute Payload) : String := a.render Payload.text "@"

/-- Source text of an extension node inside an item. -/
def Extension.text (x : Extension Payload) : String := x.render Payload.text "%"

/-- Source text of a type expression. -/
def TypeExpr.text (t : TypeExpr Payload) : String := t.render Payload.text .top

/-- Source text of a pattern. -/
def Pattern.text (p : Pattern Payload) : String := p.render Payload.text false

/-- Source text of an expression. -/
def Expr.text (e : Expr Payload) : String := e.render Payload.text .top

/-- Source text of a type declaration. -/
def TypeDecl.text (decl : TypeDecl Payload) : String := decl.render Payload.text

/-- Source text of a type extension. -/
def TypeExtension.text (ext : TypeExtension Payload) : String := ext.render Payload.text

/-- Source text of an item of a structure. -/
def StructureItem.text (item : StructureItem Payload) : String := item.render Payload.text

/-- Source text of an item of a signature. -/
def SignatureItem.text (item : SignatureItem Payload) : String := item.render Payload.text

/-- Source text of a module expression. -/
def ModuleExpr.text (m : ModuleExpr Payload) : String := m.render Payload.text

/-- Source text of a module type. -/
def ModuleType.text (m : ModuleType Payload) : String := m.render Payload.text

/-- Source text of a structure, one line for each item. -/
def structureText (items : List (StructureItem Payload)) : String :=
  joinWith "\n" (items.map StructureItem.text)

/-- Source text of a signature, one line for each item. -/
def signatureText (items : List (SignatureItem Payload)) : String :=
  joinWith "\n" (items.map SignatureItem.text)

end DeriveKit
