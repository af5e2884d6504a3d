import DeriveKit.Generator.Basic

/-!
# DeriveKit.Generator.Echo

A generator whose code says what the generator was asked (`Generator.echo`): a text with its own
name, the path, what it was asked about, and the options. It helps in seeing how annotations are
understood.
-/

namespace DeriveKit

namespace Echo

/-- An option with the place it was written at. -/
def settingText (s : Setting) : String := s.key ++ "=" ++ s.value.text ++ "@" ++ s.span.text

/-- What a generator was asked about `subject`. -/
def label (generator : String) (settings : List Setting) (path : ModulePath) (subject : String) :
    String :=
  generator ++ "|" ++ path.text ++ "|" ++ subject ++ "|" ++ joinWith ";" (settings.map settingText)

/-- The names of a group. -/
def groupText (decls : List (TypeDecl Payload)) : String :=
  joinWith "," (decls.map (·.name.value))

/-- An item of a structure that holds a text. -/
def structureItem (text : String) : StructureItem Payload :=
  .eval (.string text .generated) .generated

/-- An item of a signature whose name is a text. -/
def signatureItem (text : String) : SignatureItem Payload :=
  .value text (.named "string" .generated) .generated

/-- The text for a type in the place of an expression. -/
def inline (generator : String) (t : TypeExpr Payload) : Expr Payload :=
  .string (generator ++ "<" ++ t.text ++ ">") t.span

end Echo

/-- The generator called `name` that says what it was asked. -/
def Generator.echo (name : String) : Generator where
  name := name
  structureTypes? := some fun settings path decls =>
    .ok [Echo.structureItem (Echo.label name settings path (Echo.groupText decls))]
  structureExtension? := some fun settings path ext =>
    .ok [Echo.structureItem (Echo.label name settings path ext.path.value.text)]
  signatureTypes? := some fun settings path decls =>
    .ok [Echo.signatureItem (Echo.label name settings path (Echo.groupText decls))]
  signatureExtension? := some fun settings path ext =>
    .ok [Echo.signatureItem (Echo.label name settings path ext.path.value.text)]
  inline? := some fun t => .ok (Echo.inline name t)

end DeriveKit
