import DeriveKit.Generator.Basic
import DeriveKit.Naming.Affix

/-!
# DeriveKit.Generator.Locator

A generator of values that say where a declaration is: the name of the type as it is written from
outside all modules. In a structure each declaration gets a value (`structureItem`), in a signature
the type of one (`signatureItem`).
-/

namespace DeriveKit

namespace Locator

/-- The place of the values and constructors of a declaration. -/
def place (path : ModulePath) (decl : TypeDecl Payload) : String :=
  (path.ofDecl decl).expand decl.name.value

/-- A value that says where a declaration is. -/
def structureItem (name : String) (path : ModulePath) (decl : TypeDecl Payload) :
    StructureItem Payload :=
  .value .nonrecursive
    [.bare (.var ((Affix.before name).declName decl) .generated)
      (.string (place path decl) .generated) .generated] .generated

/-- The type of the value that says where a declaration is. -/
def signatureItem (name : String) (decl : TypeDecl Payload) : SignatureItem Payload :=
  .value ((Affix.before name).declName decl) (.named "string" .generated) .generated

end Locator

/-- The generator called `name` of values that say where a declaration is. -/
def Generator.locator (name : String) : Generator where
  name := name
  structureTypes? := some fun _ path decls => .ok (decls.map (Locator.structureItem name path))
  structureExtension? := some fun _ path ext =>
    .ok [.eval (.string (path.expand ext.path.value.last) .generated) .generated]
  signatureTypes? := some fun _ _ decls => .ok (decls.map (Locator.signatureItem name))
  signatureExtension? := some fun _ path ext =>
    .ok [.value (path.expand ext.path.value.last) (.named "string" .generated) .generated]

end DeriveKit
