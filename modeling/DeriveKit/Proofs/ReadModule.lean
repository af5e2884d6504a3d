import DeriveKit.Proofs.Reading
import DeriveKit.Text.Payload
import DeriveKit.Tree.Erase

/-!
# DeriveKit.Proofs.ReadModule

A reader of module types and module expressions (`ModuleType.read`, `ModuleExpr.read`).
`ModuleExpr.isLegible` says which of them have a text that can be read at all. No parentheses stand
around a functor that is applied, so what the text of its application is read as is a functor whose
body is applied: `ModuleExpr.group` builds the tree that is read, and `ModuleExpr.regrouped` does so
at any depth. `ModuleExpr.appliesFunctor` says that there is such an application somewhere.
-/

namespace DeriveKit

variable {π ρ : Type}

/-! ## modules whose text can be read back -/

/-- Whether the name of a module, if there is one, is a name. -/
def isModuleName (name : Located (Option String)) : Bool := name.value.all isName

mutual

/-- Whether a module type is made of names, functors and signatures of module declarations. -/
def ModuleType.isLegible : ModuleType π → Bool
  | ⟨shape, _, attributes⟩ => attributes.isEmpty && ModuleTypeShape.isLegible shape

/-- Whether a form of module type is made of names, functors and signatures. -/
def ModuleTypeShape.isLegible : ModuleTypeShape π → Bool
  | .ident name => name.value.isNamed
  | .signature items => SignatureItem.allLegible items
  | .functor param body => FunctorParam.isLegible param && ModuleType.isLegible body
  | .aliased _ | .extension _ => false

/-- Whether the parameter of a functor is of such a type. -/
def FunctorParam.isLegible : FunctorParam π → Bool
  | .unit => true
  | .named name type => isModuleName name && ModuleType.isLegible type

/-- Whether an item of a signature declares a module of such a type. -/
def SignatureItem.isLegible : SignatureItem π → Bool
  | ⟨shape, _⟩ => SignatureShape.isLegible shape

/-- Whether a form of item declares a module of such a type. -/
def SignatureShape.isLegible : SignatureShape π → Bool
  | .module decl => ModuleDecl.isLegible decl
  | .value _ | .types .. | .extend _ | .recModules _ | .moduleType _ | .openModule _ | .include ..
  | .attribute _ | .extension .. => false

/-- Whether all items of a signature declare modules of such types. -/
def SignatureItem.allLegible : List (SignatureItem π) → Bool
  | [] => true
  | item :: rest => SignatureItem.isLegible item && SignatureItem.allLegible rest

/-- Whether a declaration is of such a type. -/
def ModuleDecl.isLegible : ModuleDecl π → Bool
  | ⟨name, type, attributes, _⟩ =>
      attributes.isEmpty && isModuleName name && ModuleType.isLegible type

end

mutual

/-- Whether a module expression is made of names, functors, applications, constraints and structures
of module bindings. -/
def ModuleExpr.isLegible : ModuleExpr π → Bool
  | ⟨shape, _, attributes⟩ => attributes.isEmpty && ModuleExprShape.isLegible shape

/-- Whether a form of module expression is made of names, functors, applications, constraints and
structures. -/
def ModuleExprShape.isLegible : ModuleExprShape π → Bool
  | .ident name => name.value.isNamed
  | .structure items => StructureItem.allLegible items
  | .functor param body => param.isLegible && ModuleExpr.isLegible body
  | .apply functor arg => ModuleExpr.isLegible functor && ModuleExpr.isLegible arg
  | .constraint module type => ModuleExpr.isLegible module && type.isLegible
  | .extension _ => false

/-- Whether an item of a structure binds such a module. -/
def StructureItem.isLegible : StructureItem π → Bool
  | ⟨shape, _⟩ => StructureShape.isLegible shape

/-- Whether a form of item binds such a module. -/
def StructureShape.isLegible : StructureShape π → Bool
  | .module binding => ModuleBinding.isLegible binding
  | .eval .. | .value .. | .primitive _ | .types .. | .extend _ | .recModules _ | .moduleType _
  | .openModule _ | .include .. | .attribute _ | .extension .. => false

/-- Whether all items of a structure bind such modules. -/
def StructureItem.allLegible : List (StructureItem π) → Bool
  | [] => true
  | item :: rest => StructureItem.isLegible item && StructureItem.allLegible rest

/-- Whether a binding is of such a module. -/
def ModuleBinding.isLegible : ModuleBinding π → Bool
  | ⟨name, body, attributes, _⟩ =>
      attributes.isEmpty && isModuleName name && ModuleExpr.isLegible body

end

/-! ## the readers -/

/-- Reads the name of a module, or the wildcard of one without. -/
def readModuleName : Reader (Located (Option String)) := fun cs =>
  match readName cs, expect "_" cs with
  | some (name, rest), _ => some (.generated (some name), rest)
  | none, some rest => some (.generated none, rest)
  | none, none => none

namespace ModuleType

/-- The form as a module type that was written nowhere. -/
def made (shape : ModuleTypeShape ρ) : ModuleType ρ := ⟨shape, .generated, []⟩

/-- The declaration of a module as an item that was written nowhere. -/
def declared (name : Located (Option String)) (t : ModuleType ρ) : SignatureItem ρ :=
  ⟨.module ⟨name, t, [], .generated⟩, .generated⟩

variable (inner : Reader (ModuleType ρ))

/-- Reads a name, the sign before a type, and the type. -/
def readTyped : Reader (Located (Option String) × ModuleType ρ) := fun cs => do
  let (name, rest) ← readModuleName cs
  let rest ← expect " : " rest
  let (t, rest) ← inner rest
  some ((name, t), rest)

/-- Reads the parameter of a functor. -/
def readParam : Reader (FunctorParam ρ) := fun cs => do
  let rest ← expect "(" cs
  match expect ")" rest with
  | some rest => some (.unit, rest)
  | none =>
      let ((name, t), rest) ← readTyped inner rest
      let rest ← expect ")" rest
      some (.named name t, rest)

/-- Reads the declaration of a module. -/
def readDecl : Reader (SignatureItem ρ) := fun cs => do
  let ((name, t), rest) ← readTyped inner cs
  some (declared name t, rest)

/-- Reads any module type whose parts `inner` can read. -/
def readStep : Reader (ModuleType ρ) := fun cs =>
  match readQualName cs, expect "sig" cs with
  | some (name, rest), _ => some (made (.ident (.generated name)), rest)
  | none, some rest => do
    let (items, rest) := many (after " module " (readDecl inner)) rest
    let rest ← expect " end" rest
    some (made (.signature items), rest)
  | none, none => do
    let rest ← expect "functor " cs
    let (param, rest) ← readParam inner rest
    let rest ← expect " -> " rest
    let (body, rest) ← inner rest
    some (made (.functor param body), rest)

/-- Reads any module type that is nested no deeper than `depth`. -/
def read : Nat → Reader (ModuleType ρ)
  | 0 => fun _ => none
  | depth + 1 => readStep (read depth)

end ModuleType

namespace ModuleExpr

/-- The form as a module expression that was written nowhere. -/
def made (shape : ModuleExprShape ρ) : ModuleExpr ρ := ⟨shape, .generated, []⟩

/-- The binding of a module as an item that was written nowhere. -/
def bound (name : Located (Option String)) (m : ModuleExpr ρ) : StructureItem ρ :=
  ⟨.module ⟨name, m, [], .generated⟩, .generated⟩

/-- A module applied to one argument after another. -/
def applied (m : ModuleExpr ρ) : List (ModuleExpr ρ) → ModuleExpr ρ
  | [] => m
  | arg :: args => applied (made (.apply m arg)) args

variable (inner : Reader (ModuleExpr ρ)) (type : Reader (ModuleType ρ))

/-- Reads what stands after the parenthesis that opens an argument. -/
def readArg : Reader (ModuleExpr ρ) := fun cs => do
  let (m, rest) ← inner cs
  let rest ← expect ")" rest
  some (m, rest)

/-- Reads the binding of a module. -/
def readBinding : Reader (StructureItem ρ) := fun cs => do
  let (name, rest) ← readModuleName cs
  let rest ← expect " = " rest
  let (m, rest) ← inner rest
  some (bound name m, rest)

/-- Reads a module expression that no argument takes apart. -/
def readHead : Reader (ModuleExpr ρ) := fun cs =>
  match readQualName cs, expect "struct" cs with
  | some (name, rest), _ => some (made (.ident (.generated name)), rest)
  | none, some rest => do
    let (items, rest) := many (after " module " (readBinding inner)) rest
    let rest ← expect " end" rest
    some (made (.structure items), rest)
  | none, none => do
    let rest ← expect "(" cs
    let (m, rest) ← inner rest
    let rest ← expect " : " rest
    let (t, rest) ← type rest
    let rest ← expect ")" rest
    some (made (.constraint m t), rest)

/-- Reads any module expression whose parts `inner` and `type` can read. What stands after the arrow
of a functor belongs to its body. -/
def readStep : Reader (ModuleExpr ρ) := fun cs =>
  match readHead inner type cs with
  | some (head, rest) =>
      some (head.applied (many (after "(" (readArg inner)) rest).1,
        (many (after "(" (readArg inner)) rest).2)
  | none => do
    let rest ← expect "functor " cs
    let (param, rest) ← ModuleType.readParam type rest
    let rest ← expect " -> " rest
    let (body, rest) ← inner rest
    some (made (.functor param body), rest)

/-- Reads any module expression that is nested no deeper than `depth`. -/
def read : Nat → Reader (ModuleExpr ρ)
  | 0 => fun _ => none
  | depth + 1 => readStep (read depth) (ModuleType.read depth)

/-- Reads a text as a module expression, if it is the text of one. -/
def ofText (s : String) : Option (ModuleExpr ρ) :=
  match read (s.length + 1) s.toList with
  | some (m, []) => some m
  | _ => none

end ModuleExpr

/-! ## regrouping -/

namespace ModuleExpr

/-- Whether the module expression is a functor. -/
def isFunctor (m : ModuleExpr π) : Bool :=
  match m.shape with
  | .functor .. => true
  | .ident _ | .structure _ | .apply .. | .constraint .. | .extension _ => false

/-- The application of a module, as its text is read: an argument after a functor belongs to the
body of the functor. -/
def group : ModuleExpr π → ModuleExpr π → Span → List (Attribute π) → ModuleExpr π
  | ⟨.functor param body, place, []⟩, arg, span, attributes =>
      ⟨.functor param (group body arg span attributes), place, []⟩
  | m, arg, span, attributes => ⟨.apply m arg, span, attributes⟩

end ModuleExpr

mutual

/-- The module expression with all arguments after a functor taken into the body of the functor. -/
def ModuleExpr.regrouped : ModuleExpr π → ModuleExpr π
  | ⟨.apply functor arg, span, attributes⟩ =>
      (ModuleExpr.regrouped functor).group (ModuleExpr.regrouped arg) span attributes
  | ⟨.structure items, span, attributes⟩ =>
      ⟨.structure (StructureItem.regroupedAll items), span, attributes⟩
  | ⟨.functor param body, span, attributes⟩ =>
      ⟨.functor param (ModuleExpr.regrouped body), span, attributes⟩
  | ⟨.constraint module type, span, attributes⟩ =>
      ⟨.constraint (ModuleExpr.regrouped module) type, span, attributes⟩
  | ⟨.ident name, span, attributes⟩ => ⟨.ident name, span, attributes⟩
  | ⟨.extension ext, span, attributes⟩ => ⟨.extension ext, span, attributes⟩

/-- An item with the modules that it binds or includes regrouped. -/
def StructureItem.regrouped : StructureItem π → StructureItem π
  | ⟨.module binding, span⟩ => ⟨.module (ModuleBinding.regrouped binding), span⟩
  | ⟨.recModules bindings, span⟩ => ⟨.recModules (ModuleBinding.regroupedAll bindings), span⟩
  | ⟨.include module attributes, span⟩ =>
      ⟨.include (ModuleExpr.regrouped module) attributes, span⟩
  | item => item

/-- Items with the modules that they bind or include regrouped. -/
def StructureItem.regroupedAll : List (StructureItem π) → List (StructureItem π)
  | [] => []
  | item :: rest => StructureItem.regrouped item :: StructureItem.regroupedAll rest

/-- A binding of the regrouped module. -/
def ModuleBinding.regrouped : ModuleBinding π → ModuleBinding π
  | ⟨name, body, attributes, span⟩ => ⟨name, ModuleExpr.regrouped body, attributes, span⟩

/-- Bindings of the regrouped modules. -/
def ModuleBinding.regroupedAll : List (ModuleBinding π) → List (ModuleBinding π)
  | [] => []
  | b :: rest => ModuleBinding.regrouped b :: ModuleBinding.regroupedAll rest

end

mutual

/-- Whether a functor is applied in the module expression. -/
def ModuleExpr.appliesFunctor : ModuleExpr π → Bool
  | ⟨shape, _, _⟩ => ModuleExprShape.appliesFunctor shape

/-- Whether a functor is applied in the form. -/
def ModuleExprShape.appliesFunctor : ModuleExprShape π → Bool
  | .apply functor arg =>
      functor.isFunctor || (ModuleExpr.appliesFunctor functor || ModuleExpr.appliesFunctor arg)
  | .structure items => StructureItem.anyAppliesFunctor items
  | .functor _ body => ModuleExpr.appliesFunctor body
  | .constraint module _ => ModuleExpr.appliesFunctor module
  | .ident _ | .extension _ => false

/-- Whether a functor is applied in a module that the item binds or includes. -/
def StructureItem.appliesFunctor : StructureItem π → Bool
  | ⟨.module binding, _⟩ => ModuleBinding.appliesFunctor binding
  | ⟨.recModules bindings, _⟩ => ModuleBinding.anyAppliesFunctor bindings
  | ⟨.include module _, _⟩ => ModuleExpr.appliesFunctor module
  | _ => false

/-- Whether a functor is applied in some of the items. -/
def StructureItem.anyAppliesFunctor : List (StructureItem π) → Bool
  | [] => false
  | item :: rest => StructureItem.appliesFunctor item || StructureItem.anyAppliesFunctor rest

/-- Whether a functor is applied in the module that is bound. -/
def ModuleBinding.appliesFunctor : ModuleBinding π → Bool
  | ⟨_, body, _, _⟩ => ModuleExpr.appliesFunctor body

/-- Whether a functor is applied in some of the modules that are bound. -/
def ModuleBinding.anyAppliesFunctor : List (ModuleBinding π) → Bool
  | [] => false
  | b :: rest => ModuleBinding.appliesFunctor b || ModuleBinding.anyAppliesFunctor rest

end

end DeriveKit
