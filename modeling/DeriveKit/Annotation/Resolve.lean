import DeriveKit.Annotation.Request
import DeriveKit.Generator.Registry

/-!
# DeriveKit.Annotation.Resolve

Answering annotations. All generators that an annotation asks for are looked up before the first of
them is run; then they are run in order, and the first failure ends it. A failure without a place is
given the place of the entry.
-/

namespace DeriveKit

/-- The attributes of all members of a group, in order. -/
def TypeDecl.groupAttributes {π : Type} (decls : List (TypeDecl π)) : List (Attribute π) :=
  decls.flatMap (·.attributes)

/-- Whether some member of a group is annotated. -/
def TypeDecl.isAnnotated {π : Type} (decls : List (TypeDecl π)) : Bool :=
  decls.any fun decl => decl.attributes.any Attribute.isDeriving

namespace Registry

/-- The failure to find a generator. -/
def unknown (r : Registry) (name : String) : Cause := .unknownGenerator name r.names

/-- The generators for requests, without the optional ones that are not there. -/
def choose (r : Registry) : List Request → Outcome (List (Generator × Request))
  | [] => .ok []
  | request :: rest =>
      match r.lookup request.name with
      | some g => return (g, request) :: (← choose r rest)
      | none =>
          if request.isOptional then choose r rest else fail (r.unknown request.name) request.span

/-- The generators that the first annotation among attributes asks for. -/
def resolve (r : Registry) (attributes : List (Attribute Payload)) :
    Outcome (List (Generator × Request)) :=
  match attributes.find? Attribute.isDeriving with
  | none => .ok []
  | some a => do r.choose (← Request.ofPayload a.payload a.span)

/-- Runs generators in order and puts together what they give. -/
def runAll {α : Type} (run : Generator → List Setting → Outcome (List α)) :
    List (Generator × Request) → Outcome (List α)
  | [] => .ok []
  | (g, request) :: rest =>
      match run g request.settings with
      | .error fault => .error (fault.orAt request.span)
      | .ok items => return items ++ (← runAll run rest)

/-- What the annotation of a group in a structure asks for. -/
def structureTypes (r : Registry) (path : ModulePath) (decls : List (TypeDecl Payload)) :
    Outcome (List (StructureItem Payload)) := do
  runAll (fun g settings => g.structureTypes settings path decls)
    (← r.resolve (TypeDecl.groupAttributes decls))

/-- What the annotation of a type extension in a structure asks for. -/
def structureExtension (r : Registry) (path : ModulePath) (ext : TypeExtension Payload) :
    Outcome (List (StructureItem Payload)) := do
  runAll (fun g settings => g.structureExtension settings path ext) (← r.resolve ext.attributes)

/-- What the annotation of a group in a signature asks for. -/
def signatureTypes (r : Registry) (path : ModulePath) (decls : List (TypeDecl Payload)) :
    Outcome (List (SignatureItem Payload)) := do
  runAll (fun g settings => g.signatureTypes settings path decls)
    (← r.resolve (TypeDecl.groupAttributes decls))

/-- What the annotation of a type extension in a signature asks for. -/
def signatureExtension (r : Registry) (path : ModulePath) (ext : TypeExtension Payload) :
    Outcome (List (SignatureItem Payload)) := do
  runAll (fun g settings => g.signatureExtension settings path ext) (← r.resolve ext.attributes)

/-- The expression for a type in the place of an expression at `span`. -/
def inline (r : Registry) (name : String) (payload : Payload) (span : Span) :
    Outcome (Expr Payload) :=
  match payload.type? with
  | none => fail .malformedInline span
  | some t =>
      match r.lookup name with
      | none => fail (r.unknown name) span
      | some g =>
          match g.inline t with
          | .ok e => .ok e
          | .error fault => .error (fault.orAt span)

end Registry

end DeriveKit
