import DeriveKit.Proofs.Outermost
import DeriveKit.Proofs.Walk

/-!
# DeriveKit.Proofs.Points

The places of a unit that ask for code (`Point`): the annotated groups and type extensions (`Site`),
with the path of the modules they lie in, and the placeholders in expressions (`Placeholder`). Each
has an answer of its own (`Site.answer`, `Placeholder.answer`), which does not depend on the rest of
the unit. `SourceUnit.points` lists them in the order of a walk, and `Point.check` says whether the
answer is a failure.
-/

namespace DeriveKit

variable {π : Type}

/-! ## annotated declarations -/

/-- What an annotation is about: a group of type declarations or a type extension. -/
inductive Subject (π : Type)
  | types (recursion : Recursion) (decls : List (TypeDecl π)) (span : Span)
  | extension (ext : TypeExtension π)

/-- The annotated declarations that an item of a structure is, if it is. -/
def StructureItem.subject? : StructureItem π → Option (Subject π)
  | ⟨.types recursion decls, span⟩ =>
      if TypeDecl.isAnnotated decls then some (.types recursion decls span) else none
  | ⟨.extend ext, _⟩ =>
      if ext.attributes.any Attribute.isDeriving then some (.extension ext) else none
  | _ => none

/-- The annotated declarations that an item of a signature is, if it is. -/
def SignatureItem.subject? : SignatureItem π → Option (Subject π)
  | ⟨.types recursion decls, span⟩ =>
      if TypeDecl.isAnnotated decls then some (.types recursion decls span) else none
  | ⟨.extend ext, _⟩ =>
      if ext.attributes.any Attribute.isDeriving then some (.extension ext) else none
  | _ => none

/-- There is nothing to walk through inside annotated declarations. -/
theorem StructureItem.walk_of_subject? {shape : StructureShape π} {span : Span} {s : Subject π}
    (h : subject? ⟨shape, span⟩ = some s) (shut : Span → Bool) : shape.walk shut = [] := by
  cases shape with
  | types _ _ | extend _ => rfl
  | _ => simp [subject?] at h

/-- A walk does not go into an item that has a subject: there are no modules in it. -/
theorem SignatureItem.walk_of_subject? {shape : SignatureShape π} {span : Span} {s : Subject π}
    (h : subject? ⟨shape, span⟩ = some s) (shut : Span → Bool) : shape.walk shut = [] := by
  cases shape with
  | types _ _ | extend _ => rfl
  | _ => simp [subject?] at h

namespace Subject

/-- The attributes among which the annotation of a subject is. -/
def attributes : Subject π → List (Attribute π)
  | types _ decls _ => TypeDecl.groupAttributes decls
  | extension ext => ext.attributes

/-- What generators make of a subject in a structure. A group that is not recursive has no answer,
whatever its annotation asks for. -/
def structureAnswer (r : Registry) (path : ModulePath) :
    Subject Payload → Outcome (List (StructureItem Payload))
  | types .recursive decls _ => r.structureTypes path decls
  | types .nonrecursive _ span => fail .nonrecursive span
  | extension ext => r.structureExtension path ext

/-- What generators make of a subject in a signature. -/
def signatureAnswer (r : Registry) (path : ModulePath) :
    Subject Payload → Outcome (List (SignatureItem Payload))
  | types .recursive decls _ => r.signatureTypes path decls
  | types .nonrecursive _ span => fail .nonrecursive span
  | extension ext => r.signatureExtension path ext

end Subject

/-- A subject, the kind of list it lies in, and the path there. -/
inductive Site (π : Type)
  | structure (path : ModulePath) (subject : Subject π)
  | signature (path : ModulePath) (subject : Subject π)

/-- The annotated declarations of a site. -/
def Site.subject : Site π → Subject π
  | .structure _ subject | .signature _ subject => subject

/-- The items that generators make for a site. -/
def Site.answer (r : Registry) : Site Payload → Outcome (List (Item Payload))
  | .structure path subject => List.map .structure <$> subject.structureAnswer r path
  | .signature path subject => List.map .signature <$> subject.signatureAnswer r path

/-- The site that an item at `path` is, if it is annotated. -/
def Item.site? (path : ModulePath) : Item π → Option (Site π)
  | .structure item => item.subject?.map (.structure path)
  | .signature item => item.subject?.map (.signature path)

/-! ## placeholders -/

/-- An expression that stands for what the generator called `name` makes of a type. -/
structure Placeholder (π : Type) where
  name : String
  payload : π
  span : Span

/-- The placeholder that an expression is, if it is one. -/
def Expr.placeholder? : Expr π → Option (Placeholder π)
  | ⟨.extension ext, span, _⟩ => (placeholderName? ext.name.value).map (⟨·, ext.payload, span⟩)
  | _ => none

/-- The expression that a placeholder stands for. -/
def Placeholder.answer (r : Registry) (p : Placeholder Payload) : Outcome (Expr Payload) :=
  r.inline p.name p.payload p.span

/-- The placeholders in an expression, from left to right. -/
def Expr.placeholders (e : Expr π) : List (Placeholder π) := e.outermost Expr.placeholder?

/-- The expression with `put p` in the place of each placeholder `p`. -/
def Expr.fill (put : Placeholder π → Expr π) (e : Expr π) : Expr π :=
  e.replaceOutermost Expr.placeholder? put

/-! ## points -/

/-- A place that asks for code. -/
inductive Point (π : Type)
  | site (s : Site π)
  | placeholder (p : Placeholder π)

/-- Whether there is an answer at a point. -/
def Point.check (r : Registry) : Point Payload → Outcome Unit
  | .site s => (s.answer r).check
  | .placeholder p => (p.answer r).check

/-- The modules `within` a path. -/
def ModulePath.within (path : ModulePath) (names : List String) : ModulePath :=
  ⟨path.segments ++ names⟩

namespace Encounter

/-- The site that is met, if one is, in a unit whose items live at `path`. -/
def site? (path : ModulePath) : Encounter π → Option (Site π)
  | item names i => i.site? (path.within names)
  | expr _ => none

/-- The points that are met. -/
def points (path : ModulePath) : Encounter π → List (Point π)
  | item names i => ((i.site? (path.within names)).map .site).toList
  | expr e => e.placeholders.map .placeholder

end Encounter

namespace SourceUnit

/-- The sites of a unit whose items live at `path`, in the order of a walk. -/
def sites (path : ModulePath) (u : SourceUnit π) : List (Site π) :=
  u.walk.filterMap (·.site? path)

/-- The placeholders of a unit in the order of a walk. -/
def placeholders (u : SourceUnit π) : List (Placeholder π) := u.exprs.flatMap (·.placeholders)

/-- The points of a unit in the order of a walk. -/
def points (path : ModulePath) (u : SourceUnit π) : List (Point π) :=
  u.walk.flatMap (·.points path)

end SourceUnit

/-! ## paths -/

@[simp] theorem ModulePath.within_nil (path : ModulePath) : path.within [] = path := by
  rw [within, List.append_nil]

theorem ModulePath.enter_some (path : ModulePath) (name : String) :
    path.enter (some name) = path.child name := rfl

/-- Entering a module and then more modules is entering all of them. -/
theorem ModulePath.within_append (path : ModulePath) (name : Option String) (names : List String) :
    path.within (name.toList ++ names) = (path.enter name).within names := by
  cases name with
  | none => rfl
  | some name => simp only [within, enter, child, Option.toList_some, List.append_assoc]

/-- What is met inside a module has its site at the path that leads into it. -/
theorem Encounter.site?_inside (path : ModulePath) (name : Option String) (e : Encounter π) :
    (e.inside name).site? path = e.site? (path.enter name) := by
  cases e with
  | item names i => rw [inside, site?, site?, ModulePath.within_append]
  | expr e => rfl

/-- What is met inside a module has its points at the path that leads into it. -/
theorem Encounter.points_inside (path : ModulePath) (name : Option String) (e : Encounter π) :
    (e.inside name).points path = e.points (path.enter name) := by
  cases e with
  | item names i => rw [inside, points, points, ModulePath.within_append]
  | expr e => rfl

/-! ## the points of a unit -/

/-- Every site is a point. -/
theorem SourceUnit.site_mem_points {path : ModulePath} {u : SourceUnit π} {s : Site π}
    (h : s ∈ u.sites path) : .site s ∈ u.points path := by
  obtain ⟨e, he, hs⟩ := List.mem_filterMap.1 h
  refine List.mem_flatMap.2 ⟨e, he, ?_⟩
  cases e with
  | item names i =>
      rw [Encounter.site?] at hs
      rw [Encounter.points, hs]
      exact List.mem_singleton.2 rfl
  | expr e => cases hs

/-- Every placeholder is a point. -/
theorem SourceUnit.placeholder_mem_points {path : ModulePath} {u : SourceUnit π}
    {p : Placeholder π} (h : p ∈ u.placeholders) : .placeholder p ∈ u.points path := by
  obtain ⟨e, he, hp⟩ := List.mem_flatMap.1 h
  obtain ⟨i, hi, hie⟩ := List.mem_filterMap.1 he
  cases i with
  | item names i => cases hie
  | expr e' =>
      cases hie
      exact List.mem_flatMap.2 ⟨_, hi, List.mem_map_of_mem hp⟩

/-- A group is where its item is. -/
theorem StructureItem.span_of_subject? {item : StructureItem Payload} {recursion : Recursion}
    {decls : List (TypeDecl Payload)} {span : Span}
    (h : item.subject? = some (.types recursion decls span)) : item.span = span := by
  obtain ⟨shape, place⟩ := item
  cases shape with
  | types =>
      obtain ⟨-, hs⟩ := Option.ite_none_right_eq_some.1 h
      cases hs
      rfl
  | extend =>
      obtain ⟨-, hs⟩ := Option.ite_none_right_eq_some.1 h
      cases hs
  | _ => cases h

/-- A group of types in a signature stands where its item does. -/
theorem SignatureItem.span_of_subject? {item : SignatureItem Payload} {recursion : Recursion}
    {decls : List (TypeDecl Payload)} {span : Span}
    (h : item.subject? = some (.types recursion decls span)) : item.span = span := by
  obtain ⟨shape, place⟩ := item
  cases shape with
  | types =>
      obtain ⟨-, hs⟩ := Option.ite_none_right_eq_some.1 h
      cases hs
      rfl
  | extend =>
      obtain ⟨-, hs⟩ := Option.ite_none_right_eq_some.1 h
      cases hs
  | _ => cases h

/-! ## answers in the course of an expansion -/

/-- What is generated after an item is the answer to its subject. -/
theorem StructureItem.generated_eq (r : Registry) (path : ModulePath)
    (item : StructureItem Payload) :
    item.generated r path = item.subject?.elim (.ok []) (·.structureAnswer r path) := by
  obtain ⟨shape, span⟩ := item
  cases shape with
  | types recursion decls =>
      by_cases h : TypeDecl.isAnnotated decls
      · cases recursion <;> simp only [generated, TypeDecl.checkGroup, subject?, h] <;> rfl
      · simp only [generated, TypeDecl.checkGroup, subject?, h]
        rfl
  | extend ext =>
      by_cases h : ext.attributes.any Attribute.isDeriving
      · simp only [generated, subject?, h]
        rfl
      · simp only [generated, subject?, h]
        rfl
  | _ => rfl

/-- What is generated after an item of a signature is the answer to its subject. -/
theorem SignatureItem.generated_eq (r : Registry) (path : ModulePath)
    (item : SignatureItem Payload) :
    item.generated r path = item.subject?.elim (.ok []) (·.signatureAnswer r path) := by
  obtain ⟨shape, span⟩ := item
  cases shape with
  | types recursion decls =>
      by_cases h : TypeDecl.isAnnotated decls
      · cases recursion <;> simp only [generated, TypeDecl.checkGroup, subject?, h] <;> rfl
      · simp only [generated, TypeDecl.checkGroup, subject?, h]
        rfl
  | extend ext =>
      by_cases h : ext.attributes.any Attribute.isDeriving
      · simp only [generated, subject?, h]
        rfl
      · simp only [generated, subject?, h]
        rfl
  | _ => rfl

/-- Filling placeholders is answering at them. -/
theorem Registry.fill?_eq (r : Registry) :
    Visitor.ofExpr r.fill? = .answering Expr.placeholder? (Placeholder.answer r) := by
  have step_eq : r.fill? = fun e =>
      (Expr.placeholder? e).elim (.ok none) fun p => some <$> Placeholder.answer r p := by
    funext ⟨shape, span, attributes⟩
    cases shape with
    | extension ext =>
        simp only [fill?, Expr.placeholder?]
        cases placeholderName? ext.name.value <;> rfl
    | _ => rfl
  rw [step_eq, Visitor.answering]

end DeriveKit
