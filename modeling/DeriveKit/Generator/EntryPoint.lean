/-!
# DeriveKit.Generator.EntryPoint

The ways in which a generator can be asked for code: for a group of types or for a type extension,
in a structure or in a signature, and for an expression in the place of a placeholder.
-/

namespace DeriveKit

/-- What a generator is asked about, and where the annotation stands. -/
inductive EntryPoint
  | structureTypes
  | structureExtension
  | signatureTypes
  | signatureExtension
  | inline
deriving DecidableEq, Repr

/-- The name of a way to ask. -/
def EntryPoint.text : EntryPoint → String
  | structureTypes => "Type declarations in structures"
  | structureExtension => "Extensible types in structures"
  | signatureTypes => "Type declarations in signatures"
  | signatureExtension => "Extensible types in signatures"
  | inline => "Inline derivation"

end DeriveKit
