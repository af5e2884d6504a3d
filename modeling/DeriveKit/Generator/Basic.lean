import DeriveKit.Generator.Failure
import DeriveKit.Naming.ModulePath

/-!
# DeriveKit.Generator.Basic

Generators: named functions from declarations to code. A `Generator` need not answer every way of
asking; asked in a way that it does not answer, it fails (`Generator.unsupported`). What an
annotation sets for it comes as a list of `Setting`s.
-/

namespace DeriveKit

/-- An option written at an annotation. Its value is for the generator to read. -/
structure Setting where
  key : String
  value : Expr Payload
  span : Span

/-- An option that stands where its value does. -/
def Setting.ofValue (key : String) (value : Expr Payload) : Setting := ⟨key, value, value.span⟩

/-- Code for a group of type declarations, from the options, the path of the group and the group. -/
abbrev TypesEntry (α : Type) := List Setting → ModulePath → List (TypeDecl Payload) → Outcome α

/-- Code for a type extension, from the options, the path of the extension and the extension. -/
abbrev ExtensionEntry (α : Type) := List Setting → ModulePath → TypeExtension Payload → Outcome α

/-- A generator by name, with an answer to each way of asking that it supports. -/
structure Generator where
  name : String
  structureTypes? : Option (TypesEntry (List (StructureItem Payload))) := none
  structureExtension? : Option (ExtensionEntry (List (StructureItem Payload))) := none
  signatureTypes? : Option (TypesEntry (List (SignatureItem Payload))) := none
  signatureExtension? : Option (ExtensionEntry (List (SignatureItem Payload))) := none
  inline? : Option (TypeExpr Payload → Outcome (Expr Payload)) := none

namespace Generator

/-- The failure of a generator that is asked in a way it does not answer. It has no place yet. -/
def unsupported (g : Generator) (entry : EntryPoint) : Failure :=
  ⟨.unsupported g.name entry, .generated⟩

/-- Items for a group of type declarations in a structure. -/
def structureTypes (g : Generator) : TypesEntry (List (StructureItem Payload)) :=
  g.structureTypes?.getD fun _ _ _ => .error (.failure (g.unsupported .structureTypes))

/-- Items for a type extension in a structure. -/
def structureExtension (g : Generator) : ExtensionEntry (List (StructureItem Payload)) :=
  g.structureExtension?.getD fun _ _ _ => .error (.failure (g.unsupported .structureExtension))

/-- Items for a group of type declarations in a signature. -/
def signatureTypes (g : Generator) : TypesEntry (List (SignatureItem Payload)) :=
  g.signatureTypes?.getD fun _ _ _ => .error (.failure (g.unsupported .signatureTypes))

/-- Items for a type extension in a signature. -/
def signatureExtension (g : Generator) : ExtensionEntry (List (SignatureItem Payload)) :=
  g.signatureExtension?.getD fun _ _ _ => .error (.failure (g.unsupported .signatureExtension))

/-- The expression that a type stands for in the place of an expression. -/
def inline (g : Generator) : TypeExpr Payload → Outcome (Expr Payload) :=
  g.inline?.getD fun _ => .error (.failure (g.unsupported .inline))

end Generator

end DeriveKit
