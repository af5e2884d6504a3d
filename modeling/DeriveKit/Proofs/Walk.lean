import DeriveKit.Expansion.Items

/-!
# DeriveKit.Proofs.Walk

Reading a unit from the front to the back, parents before children. A walk meets the items of all
lists it comes to: the outermost one and the bodies of modules and of module types, also below
functors, their parameters, applications and constraints. It meets the expressions of the items as
wholes. An encounter with an item knows the names of the modules around the item, outermost first;
what has no name adds none.
-/

namespace DeriveKit

variable {π : Type}

/-- The choice of no place at all. -/
def Span.nowhere (_ : Span) : Bool := false

@[simp] theorem Span.nowhere_eq_false (s : Span) : s.nowhere = false := rfl

/-- An item of a structure or of a signature. -/
inductive Item (π : Type)
  | structure (item : StructureItem π)
  | signature (item : SignatureItem π)

/-- Where an item stands. -/
def Item.span : Item π → Span
  | .structure item => item.span
  | .signature item => item.span

/-- What a walk meets. -/
inductive Encounter (π : Type)
  | item (within : List String) (item : Item π)
  | expr (e : Expr π)

namespace Encounter

/-- An encounter below a module, as seen from outside the module. -/
def inside (name : Option String) : Encounter π → Encounter π
  | item within i => item (name.toList ++ within) i
  | expr e => expr e

/-- The item that is met, if one is. -/
def item? : Encounter π → Option (Item π)
  | item _ i => some i
  | expr _ => none

/-- The expression that is met, if one is. -/
def expr? : Encounter π → Option (Expr π)
  | item _ _ => none
  | expr e => some e

/-- A module around an encounter does not change the item that is met. -/
@[simp] theorem item?_inside (name : Option String) (e : Encounter π) :
    (e.inside name).item? = e.item? := by
  cases e <;> rfl

/-- A module around an encounter does not change the expression that is met. -/
@[simp] theorem expr?_inside (name : Option String) (e : Encounter π) :
    (e.inside name).expr? = e.expr? := by
  cases e <;> rfl

end Encounter

mutual

/-- A walk through items of a structure. Items that stand where `shut` says are met and not looked
into. -/
def StructureItem.walkAll (shut : Span → Bool) : List (StructureItem π) → List (Encounter π)
  | [] => []
  | item :: rest => StructureItem.walk shut item ++ StructureItem.walkAll shut rest

/-- A walk through an item of a structure. -/
def StructureItem.walk (shut : Span → Bool) : StructureItem π → List (Encounter π)
  | ⟨shape, span⟩ =>
      .item [] (.structure ⟨shape, span⟩) ::
        if shut span then [] else StructureShape.walk shut shape

/-- A walk through what is inside an item. -/
def StructureShape.walk (shut : Span → Bool) : StructureShape π → List (Encounter π)
  | .eval expr _ => [.expr expr]
  | .value _ bindings => bindings.map fun binding => .expr binding.expr
  | .module binding => ModuleBinding.walk shut binding
  | .recModules bindings => ModuleBinding.walkAll shut bindings
  | .moduleType decl => ModuleTypeDecl.walk shut decl
  | .include module _ => ModuleExpr.walk shut module
  | .primitive _ | .types _ _ | .extend _ | .openModule _ | .attribute _ | .extension _ _ => []

/-- A walk through items of a signature. -/
def SignatureItem.walkAll (shut : Span → Bool) : List (SignatureItem π) → List (Encounter π)
  | [] => []
  | item :: rest => SignatureItem.walk shut item ++ SignatureItem.walkAll shut rest

/-- A walk through an item of a signature. -/
def SignatureItem.walk (shut : Span → Bool) : SignatureItem π → List (Encounter π)
  | ⟨shape, span⟩ =>
      .item [] (.signature ⟨shape, span⟩) ::
        if shut span then [] else SignatureShape.walk shut shape

/-- A walk through what is inside an item. -/
def SignatureShape.walk (shut : Span → Bool) : SignatureShape π → List (Encounter π)
  | .module decl => ModuleDecl.walk shut decl
  | .recModules decls => ModuleDecl.walkAll shut decls
  | .moduleType decl => ModuleTypeDecl.walk shut decl
  | .include type _ => ModuleType.walk shut type
  | .value _ | .types _ _ | .extend _ | .openModule _ | .attribute _ | .extension _ _ => []

/-- A walk through a module expression. -/
def ModuleExpr.walk (shut : Span → Bool) : ModuleExpr π → List (Encounter π)
  | ⟨shape, _, _⟩ => ModuleExprShape.walk shut shape

/-- A walk through a form of module expression: what comes first in the source comes first. -/
def ModuleExprShape.walk (shut : Span → Bool) : ModuleExprShape π → List (Encounter π)
  | .structure items => StructureItem.walkAll shut items
  | .functor param body => FunctorParam.walk shut param ++ ModuleExpr.walk shut body
  | .apply functor arg => ModuleExpr.walk shut functor ++ ModuleExpr.walk shut arg
  | .constraint module type => ModuleExpr.walk shut module ++ ModuleType.walk shut type
  | .ident _ | .extension _ => []

/-- A walk through a module type. -/
def ModuleType.walk (shut : Span → Bool) : ModuleType π → List (Encounter π)
  | ⟨shape, _, _⟩ => ModuleTypeShape.walk shut shape

/-- A walk through a form of module type. -/
def ModuleTypeShape.walk (shut : Span → Bool) : ModuleTypeShape π → List (Encounter π)
  | .signature items => SignatureItem.walkAll shut items
  | .functor param body => FunctorParam.walk shut param ++ ModuleType.walk shut body
  | .ident _ | .aliased _ | .extension _ => []

/-- A walk through the type of a parameter. -/
def FunctorParam.walk (shut : Span → Bool) : FunctorParam π → List (Encounter π)
  | .unit => []
  | .named _ type => ModuleType.walk shut type

/-- A walk through a module binding. -/
def ModuleBinding.walk (shut : Span → Bool) : ModuleBinding π → List (Encounter π)
  | ⟨name, body, _, _⟩ => (ModuleExpr.walk shut body).map (·.inside name.value)

/-- A walk through module bindings. -/
def ModuleBinding.walkAll (shut : Span → Bool) : List (ModuleBinding π) → List (Encounter π)
  | [] => []
  | b :: rest => ModuleBinding.walk shut b ++ ModuleBinding.walkAll shut rest

/-- A walk through a module declaration. -/
def ModuleDecl.walk (shut : Span → Bool) : ModuleDecl π → List (Encounter π)
  | ⟨name, type, _, _⟩ => (ModuleType.walk shut type).map (·.inside name.value)

/-- A walk through module declarations. -/
def ModuleDecl.walkAll (shut : Span → Bool) : List (ModuleDecl π) → List (Encounter π)
  | [] => []
  | d :: rest => ModuleDecl.walk shut d ++ ModuleDecl.walkAll shut rest

/-- A walk through the declaration of a module type. -/
def ModuleTypeDecl.walk (shut : Span → Bool) : ModuleTypeDecl π → List (Encounter π)
  | ⟨_, none, _, _⟩ => []
  | ⟨name, some type, _, _⟩ => (ModuleType.walk shut type).map (·.inside (some name.value))

end

/-! ## units -/

/-- A unit of source: a structure or a signature. -/
inductive SourceUnit (π : Type)
  | structure (items : List (StructureItem π))
  | signature (items : List (SignatureItem π))

namespace SourceUnit

/-- The expansion of a unit. -/
def expand (r : Registry) (path : ModulePath) :
    SourceUnit Payload → Outcome (SourceUnit Payload)
  | .structure items => return .structure (← StructureItem.expandAll r path items)
  | .signature items => return .signature (← SignatureItem.expandAll r path items)

/-- A walk through a unit. Items that stand where `shut` says are not looked into. -/
def walkUpTo (shut : Span → Bool) : SourceUnit π → List (Encounter π)
  | .structure items => StructureItem.walkAll shut items
  | .signature items => SignatureItem.walkAll shut items

/-- A walk through all of a unit. -/
def walk (u : SourceUnit π) : List (Encounter π) := u.walkUpTo Span.nowhere

/-- All items of a unit, parents before children. -/
def items (u : SourceUnit π) : List (Item π) := u.walk.filterMap (·.item?)

/-- All expressions of a unit. -/
def exprs (u : SourceUnit π) : List (Expr π) := u.walk.filterMap (·.expr?)

/-- The items of a unit that stand at `m`, without those inside other such items. -/
def marked (m : Span) (u : SourceUnit π) : List (Item π) :=
  ((u.walkUpTo (· == m)).filterMap (·.item?)).filter (·.span == m)

end SourceUnit

end DeriveKit
