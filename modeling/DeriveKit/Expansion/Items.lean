import DeriveKit.Expansion.Inline

/-!
# DeriveKit.Expansion.Items

Expanding a unit. Each annotated group or extension is followed by what its generators make; items
inside modules are expanded with the name of the module added to the path, and expressions have
their placeholders filled. What generators make is not expanded again. The first fault in the order
of the source ends the expansion.
-/

namespace DeriveKit

/-- The path inside a module. A module without a name adds nothing to the path. -/
def ModulePath.enter (path : ModulePath) : Option String → ModulePath
  | none => path
  | some name => path.child name

/-- Whether a group at `span` is to be expanded. It cannot be if it is not recursive, for then the
code made for it would not see the types it is about. -/
def TypeDecl.checkGroup (recursion : Recursion) (decls : List (TypeDecl Payload)) (span : Span) :
    Outcome Bool :=
  if TypeDecl.isAnnotated decls then
    match recursion with
    | .recursive => .ok true
    | .nonrecursive => fail .nonrecursive span
  else .ok false

/-- What follows an item of a structure. -/
def StructureItem.generated (r : Registry) (path : ModulePath) (item : StructureItem Payload) :
    Outcome (List (StructureItem Payload)) :=
  match item.shape with
  | .types recursion decls => do
    if ← TypeDecl.checkGroup recursion decls item.span then r.structureTypes path decls
    else return []
  | .extend ext =>
      if ext.attributes.any Attribute.isDeriving then r.structureExtension path ext else .ok []
  | _ => .ok []

/-- What follows an item of a signature. -/
def SignatureItem.generated (r : Registry) (path : ModulePath) (item : SignatureItem Payload) :
    Outcome (List (SignatureItem Payload)) :=
  match item.shape with
  | .types recursion decls => do
    if ← TypeDecl.checkGroup recursion decls item.span then r.signatureTypes path decls
    else return []
  | .extend ext =>
      if ext.attributes.any Attribute.isDeriving then r.signatureExtension path ext else .ok []
  | _ => .ok []

mutual

/-- Expands items of a structure in order. -/
def StructureItem.expandAll (r : Registry) (path : ModulePath) :
    List (StructureItem Payload) → Outcome (List (StructureItem Payload))
  | [] => return []
  | item :: rest => do
    let expanded ← StructureItem.expand r path item
    let generated ← expanded.generated r path
    return expanded :: generated ++ (← StructureItem.expandAll r path rest)

/-- Expands what is inside an item of a structure. -/
def StructureItem.expand (r : Registry) (path : ModulePath) :
    StructureItem Payload → Outcome (StructureItem Payload)
  | ⟨shape, span⟩ => return ⟨← StructureShape.expand r path shape, span⟩

/-- Expands what is inside a form of item. -/
def StructureShape.expand (r : Registry) (path : ModulePath) :
    StructureShape Payload → Outcome (StructureShape Payload)
  | .eval expr attributes => return .eval (← r.fillAll expr) attributes
  | .value recursion bindings => return .value recursion (← r.fillBindings bindings)
  | .primitive decl => return .primitive decl
  | .types recursion decls => return .types recursion decls
  | .extend ext => return .extend ext
  | .module binding => return .module (← ModuleBinding.expand r path binding)
  | .recModules bindings => return .recModules (← ModuleBinding.expandAll r path bindings)
  | .moduleType decl => return .moduleType (← ModuleTypeDecl.expand r path decl)
  | .openModule decl => return .openModule decl
  | .include module attributes => return .include (← ModuleExpr.expand r path module) attributes
  | .attribute attr => return .attribute attr
  | .extension ext attributes => return .extension ext attributes

/-- Expands items of a signature in order. -/
def SignatureItem.expandAll (r : Registry) (path : ModulePath) :
    List (SignatureItem Payload) → Outcome (List (SignatureItem Payload))
  | [] => return []
  | item :: rest => do
    let expanded ← SignatureItem.expand r path item
    let generated ← expanded.generated r path
    return expanded :: generated ++ (← SignatureItem.expandAll r path rest)

/-- Expands what is inside an item of a signature. -/
def SignatureItem.expand (r : Registry) (path : ModulePath) :
    SignatureItem Payload → Outcome (SignatureItem Payload)
  | ⟨shape, span⟩ => return ⟨← SignatureShape.expand r path shape, span⟩

/-- Expands what is inside a form of item. -/
def SignatureShape.expand (r : Registry) (path : ModulePath) :
    SignatureShape Payload → Outcome (SignatureShape Payload)
  | .value decl => return .value decl
  | .types recursion decls => return .types recursion decls
  | .extend ext => return .extend ext
  | .module decl => return .module (← ModuleDecl.expand r path decl)
  | .recModules decls => return .recModules (← ModuleDecl.expandAll r path decls)
  | .moduleType decl => return .moduleType (← ModuleTypeDecl.expand r path decl)
  | .openModule decl => return .openModule decl
  | .include type attributes => return .include (← ModuleType.expand r path type) attributes
  | .attribute attr => return .attribute attr
  | .extension ext attributes => return .extension ext attributes

/-- Expands the items in a module expression. -/
def ModuleExpr.expand (r : Registry) (path : ModulePath) :
    ModuleExpr Payload → Outcome (ModuleExpr Payload)
  | ⟨shape, span, attributes⟩ => return ⟨← ModuleExprShape.expand r path shape, span, attributes⟩

/-- Expands the items in a form of module expression. -/
def ModuleExprShape.expand (r : Registry) (path : ModulePath) :
    ModuleExprShape Payload → Outcome (ModuleExprShape Payload)
  | .ident name => return .ident name
  | .structure items => return .structure (← StructureItem.expandAll r path items)
  | .functor param body =>
      return .functor (← FunctorParam.expand r path param) (← ModuleExpr.expand r path body)
  | .apply functor arg =>
      return .apply (← ModuleExpr.expand r path functor) (← ModuleExpr.expand r path arg)
  | .constraint module type =>
      return .constraint (← ModuleExpr.expand r path module) (← ModuleType.expand r path type)
  | .extension ext => return .extension ext

/-- Expands the items in a module type. -/
def ModuleType.expand (r : Registry) (path : ModulePath) :
    ModuleType Payload → Outcome (ModuleType Payload)
  | ⟨shape, span, attributes⟩ => return ⟨← ModuleTypeShape.expand r path shape, span, attributes⟩

/-- Expands the items in a form of module type. -/
def ModuleTypeShape.expand (r : Registry) (path : ModulePath) :
    ModuleTypeShape Payload → Outcome (ModuleTypeShape Payload)
  | .ident name => return .ident name
  | .signature items => return .signature (← SignatureItem.expandAll r path items)
  | .functor param body =>
      return .functor (← FunctorParam.expand r path param) (← ModuleType.expand r path body)
  | .aliased module => return .aliased module
  | .extension ext => return .extension ext

/-- Expands the items in the type of a parameter. -/
def FunctorParam.expand (r : Registry) (path : ModulePath) :
    FunctorParam Payload → Outcome (FunctorParam Payload)
  | .unit => return .unit
  | .named name type => return .named name (← ModuleType.expand r path type)

/-- Expands the items in a module binding. -/
def ModuleBinding.expand (r : Registry) (path : ModulePath) :
    ModuleBinding Payload → Outcome (ModuleBinding Payload)
  | ⟨name, body, attributes, span⟩ =>
      return ⟨name, ← ModuleExpr.expand r (path.enter name.value) body, attributes, span⟩

/-- Expands the items in module bindings in order. -/
def ModuleBinding.expandAll (r : Registry) (path : ModulePath) :
    List (ModuleBinding Payload) → Outcome (List (ModuleBinding Payload))
  | [] => return []
  | b :: rest => return (← ModuleBinding.expand r path b) :: (← ModuleBinding.expandAll r path rest)

/-- Expands the items in a module declaration. -/
def ModuleDecl.expand (r : Registry) (path : ModulePath) :
    ModuleDecl Payload → Outcome (ModuleDecl Payload)
  | ⟨name, type, attributes, span⟩ =>
      return ⟨name, ← ModuleType.expand r (path.enter name.value) type, attributes, span⟩

/-- Expands the items in module declarations in order. -/
def ModuleDecl.expandAll (r : Registry) (path : ModulePath) :
    List (ModuleDecl Payload) → Outcome (List (ModuleDecl Payload))
  | [] => return []
  | d :: rest => return (← ModuleDecl.expand r path d) :: (← ModuleDecl.expandAll r path rest)

/-- Expands the items in the declaration of a module type. -/
def ModuleTypeDecl.expand (r : Registry) (path : ModulePath) :
    ModuleTypeDecl Payload → Outcome (ModuleTypeDecl Payload)
  | ⟨name, none, attributes, span⟩ => return ⟨name, none, attributes, span⟩
  | ⟨name, some type, attributes, span⟩ =>
      return ⟨name, some (← ModuleType.expand r (path.child name.value) type), attributes, span⟩

end

end DeriveKit
