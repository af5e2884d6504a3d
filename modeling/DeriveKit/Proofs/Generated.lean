import DeriveKit.Generator.Echo
import DeriveKit.Proofs.Expansion
import DeriveKit.Proofs.Insertion

/-!
# DeriveKit.Proofs.Generated

Where generated items appear. If all generators mark what they make with one span `m`, which no item
of the unit has, then the items at `m` in the expansion are the answers at the sites, each site at
its own path and in the order of the sites (`SourceUnit.marked_eq_flatMap`); and without them the
expansion is the unit, with its placeholders filled and otherwise as it was
(`SourceUnit.delete_eq_fill`).
-/

namespace DeriveKit

/-! ## generators that mark what they make -/

/-- All items that a generator makes for declarations are at `m`. -/
structure Generator.Marks (g : Generator) (m : Span) : Prop where
  structureTypes : ∀ {settings path decls items},
    g.structureTypes settings path decls = .ok items → ∀ i ∈ items, i.span = m
  structureExtension : ∀ {settings path ext items},
    g.structureExtension settings path ext = .ok items → ∀ i ∈ items, i.span = m
  signatureTypes : ∀ {settings path decls items},
    g.signatureTypes settings path decls = .ok items → ∀ i ∈ items, i.span = m
  signatureExtension : ∀ {settings path ext items},
    g.signatureExtension settings path ext = .ok items → ∀ i ∈ items, i.span = m

/-- All items that registered generators make for declarations are at `m`. -/
def Registry.Marks (r : Registry) (m : Span) : Prop := ∀ g ∈ r.generators, g.Marks m

namespace Registry

variable {r : Registry} {α : Type}

/-- What is found by name is registered. -/
theorem mem_of_lookup {name : String} {g : Generator} (h : r.lookup name = some g) :
    g ∈ r.generators :=
  List.mem_of_find?_eq_some h

/-- Only registered generators are chosen. -/
theorem mem_of_choose {requests : List Request} {chosen : List (Generator × Request)}
    (h : r.choose requests = .ok chosen) : ∀ c ∈ chosen, c.1 ∈ r.generators := by
  induction requests generalizing chosen with
  | nil => cases h; simp
  | cons request rest ih =>
      rw [choose] at h
      split at h
      · next g hg =>
          obtain ⟨others, hothers, hchosen⟩ := Outcome.bind_eq_ok_iff.1 h
          cases hchosen
          rw [List.forall_mem_cons]
          exact ⟨mem_of_lookup hg, ih hothers⟩
      · split at h
        · exact ih h
        · cases h

/-- What is chosen for an annotation are generators of the registry. -/
theorem mem_of_resolve {attributes : List (Attribute Payload)}
    {chosen : List (Generator × Request)} (h : r.resolve attributes = .ok chosen) :
    ∀ c ∈ chosen, c.1 ∈ r.generators := by
  rw [resolve] at h
  split at h
  · cases h; simp
  · obtain ⟨requests, -, hchoose⟩ := Outcome.bind_eq_ok_iff.1 h
    exact mem_of_choose hchoose

/-- What holds of all items of each generator that is run holds of all items of a run. -/
theorem forall_of_runAll {P : α → Prop} {run : Generator → List Setting → Outcome (List α)}
    {chosen : List (Generator × Request)} {items : List α}
    (hrun : ∀ c ∈ chosen, ∀ part, run c.1 c.2.settings = .ok part → ∀ i ∈ part, P i)
    (h : runAll run chosen = .ok items) : ∀ i ∈ items, P i := by
  induction chosen generalizing items with
  | nil => cases h; simp
  | cons c rest ih =>
      obtain ⟨g, request⟩ := c
      rw [List.forall_mem_cons] at hrun
      rw [runAll] at h
      split at h
      · cases h
      · next part hpart =>
          obtain ⟨others, hothers, hitems⟩ := Outcome.bind_eq_ok_iff.1 h
          cases hitems
          rw [List.forall_mem_append]
          exact ⟨hrun.1 part hpart, ih hrun.2 hothers⟩

/-- What holds of all items of each registered generator holds of all items that an annotation
asks for. -/
theorem forall_of_runResolved {P : α → Prop} {run : Generator → List Setting → Outcome (List α)}
    {attributes : List (Attribute Payload)} {items : List α}
    (hrun : ∀ g ∈ r.generators, ∀ settings part, run g settings = .ok part → ∀ i ∈ part, P i)
    (h : (do runAll run (← r.resolve attributes)) = .ok items) : ∀ i ∈ items, P i := by
  obtain ⟨chosen, hchosen, hitems⟩ := Outcome.bind_eq_ok_iff.1 h
  have hregistered := mem_of_resolve hchosen
  exact forall_of_runAll (fun c hc part => hrun c.1 (hregistered c hc) c.2.settings part) hitems

end Registry

/-- Items made for a subject of a structure are marked. -/
theorem Subject.span_of_structureAnswer {r : Registry} {m : Span} (hr : r.Marks m)
    {path : ModulePath} {s : Subject Payload} {items : List (StructureItem Payload)}
    (h : s.structureAnswer r path = .ok items) : ∀ i ∈ items, i.span = m := by
  match s with
  | .types .nonrecursive _ _ => cases h
  | .types .recursive _ _ =>
      exact Registry.forall_of_runResolved (fun g hg _ _ => (hr g hg).structureTypes) h
  | .extension _ =>
      exact Registry.forall_of_runResolved (fun g hg _ _ => (hr g hg).structureExtension) h

/-- Items made for a subject of a signature are marked. -/
theorem Subject.span_of_signatureAnswer {r : Registry} {m : Span} (hr : r.Marks m)
    {path : ModulePath} {s : Subject Payload} {items : List (SignatureItem Payload)}
    (h : s.signatureAnswer r path = .ok items) : ∀ i ∈ items, i.span = m := by
  match s with
  | .types .nonrecursive _ _ => cases h
  | .types .recursive _ _ =>
      exact Registry.forall_of_runResolved (fun g hg _ _ => (hr g hg).signatureTypes) h
  | .extension _ =>
      exact Registry.forall_of_runResolved (fun g hg _ _ => (hr g hg).signatureExtension) h

/-- What holds of all items of an answer holds of all items there are, if there is an answer. -/
theorem Outcome.forall_valueOr_nil {α : Type} {P : α → Prop} {x : Outcome (List α)}
    (h : ∀ l, x = .ok l → ∀ a ∈ l, P a) : ∀ a ∈ x.valueOr [], P a := by
  cases x with
  | ok l => exact h l rfl
  | error fault => exact nofun

/-- The edit of an expansion inserts at the span that all generators mark with. -/
theorem Registry.edit_insertsAt {r : Registry} {m : Span} (hr : r.Marks m) :
    r.edit.InsertsAt m where
  drops := rfl
  structureAfter _ _ :=
    Outcome.forall_valueOr_nil fun _ h => Subject.span_of_structureAnswer hr h
  signatureAfter _ _ :=
    Outcome.forall_valueOr_nil fun _ h => Subject.span_of_signatureAnswer hr h

/-! ## a nested unit -/

/-- The generator that says what it was asked makes nothing but generated items. -/
theorem Generator.echo_marks (name : String) : (Generator.echo name).Marks .generated where
  structureTypes h := by cases h; exact List.forall_mem_singleton.2 rfl
  structureExtension h := by cases h; exact List.forall_mem_singleton.2 rfl
  signatureTypes h := by cases h; exact List.forall_mem_singleton.2 rfl
  signatureExtension h := by cases h; exact List.forall_mem_singleton.2 rfl

/-- A registry with that generator alone. -/
def echoRegistry : Registry := .ofList [.echo "echo"]

/-- All that the echo generator makes is marked. -/
theorem echoRegistry_marks : echoRegistry.Marks .generated :=
  List.forall_mem_singleton.2 (Generator.echo_marks "echo")

/-- A type with an annotation. -/
def annotatedDecl (name : String) : TypeDecl Payload :=
  { TypeDecl.abstract name ⟨12, 20⟩ with
    attributes := [.withExpr "deriving" (.var "echo" ⟨14, 18⟩)] }

/-- A module made by a functor, with a site in the parameter and another one, followed by an
expression, in the body. -/
def nestedUnit (e : Expr Payload) : SourceUnit Payload :=
  .structure
    [⟨.module
      ⟨⟨some "M", ⟨1, 2⟩⟩,
        ⟨.functor
          (.named ⟨some "X", ⟨3, 4⟩⟩
            (.signature [.types .recursive [annotatedDecl "u"] ⟨11, 21⟩] ⟨10, 22⟩))
          (.structure [.types .recursive [annotatedDecl "t"] ⟨31, 41⟩, .eval e ⟨50, 66⟩] ⟨30, 70⟩),
          ⟨3, 70⟩, []⟩,
        [], ⟨1, 70⟩⟩,
      ⟨1, 70⟩⟩]

/-- A placeholder for what the generator makes of a type. -/
def echoPlaceholder : Expr Payload :=
  .extension (.named "derive.echo" (.ofType (.named "int" ⟨62, 65⟩)) ⟨52, 60⟩) ⟨50, 66⟩

/-! ## expansions -/

/-- An answer is what the edit of an expansion inserts. -/
theorem Site.answer_eq_ok_after {r : Registry} {s : Site Payload}
    (h : (s.answer r).check = .ok ()) : s.answer r = .ok (r.edit.after s) := by
  match s with
  | .structure path subject =>
      rw [answer, Outcome.check_map] at h
      rw [answer, Outcome.eq_ok_valueOr [] h]
      rfl
  | .signature path subject =>
      rw [answer, Outcome.check_map] at h
      rw [answer, Outcome.eq_ok_valueOr [] h]
      rfl

namespace SourceUnit

variable {r : Registry} {path : ModulePath} {m : Span} {u out : SourceUnit Payload}

/-- There is an answer at every site of a unit that can be expanded. -/
theorem answer_of_expand (h : u.expand r path = .ok out) :
    ∀ s ∈ u.sites path, s.answer r = .ok (r.edit.after s) := fun s hs =>
  Site.answer_eq_ok_after ((expand_eq_ok_iff.1 h).1 (.site s) (site_mem_points hs))

/-- There is an answer at every placeholder of a unit that can be expanded. -/
theorem placeholder_of_expand (h : u.expand r path = .ok out) :
    ∀ p ∈ u.placeholders, p.answer r = .ok (r.put p) := fun p hp =>
  Outcome.eq_ok_valueOr _ ((expand_eq_ok_iff.1 h).1 (.placeholder p) (placeholder_mem_points hp))

/-- The marked items of an expansion are what is inserted after the sites. -/
theorem marked_eq_flatMap (hr : r.Marks m) (hu : ∀ i ∈ u.items, i.span ≠ m)
    (h : u.expand r path = .ok out) : out.marked m = (u.sites path).flatMap r.edit.after := by
  rw [(expand_eq_ok_iff.1 h).2]
  match u with
  | .structure items =>
      exact StructureItem.markedAmong_editAll (Registry.edit_insertsAt hr) path items hu
  | .signature items =>
      exact SignatureItem.markedAmong_editAll (Registry.edit_insertsAt hr) path items hu

/-- Without its marked items an expansion is the unit with its placeholders filled. -/
theorem delete_eq_fill (hr : r.Marks m) (hu : ∀ i ∈ u.items, i.span ≠ m)
    (h : u.expand r path = .ok out) : out.delete m = u.fill r.put := by
  rw [(expand_eq_ok_iff.1 h).2]
  match u with
  | .structure items =>
      exact congrArg SourceUnit.structure
        (StructureItem.editAll_deleting (Registry.edit_insertsAt hr) _ path _ items hu)
  | .signature items =>
      exact congrArg SourceUnit.signature
        (SignatureItem.editAll_deleting (Registry.edit_insertsAt hr) _ path _ items hu)

/-- **Sites and their paths.** The marked items of an expansion are exactly the answers at the sites
of the unit, each asked for at the path of its site, in the order of the sites. -/
theorem marked_expand (hr : r.Marks m) (hu : ∀ i ∈ u.items, i.span ≠ m)
    (h : u.expand r path = .ok out) :
    ∃ outputs, (u.sites path).mapM (·.answer r) = .ok outputs ∧
      out.marked m = outputs.flatten := by
  refine ⟨(u.sites path).map r.edit.after, Outcome.mapM_eq_ok_map (answer_of_expand h), ?_⟩
  rw [marked_eq_flatMap hr hu h, List.flatMap_def]

/-- In a module with a signature, what is found are the answers for a type of the signature and for
one of the structure, both at the path of the module. -/
theorem marked_expand_nestedUnit :
    ∃ out, (nestedUnit echoPlaceholder).expand echoRegistry ⟨["Lib"]⟩ = .ok out ∧
      out.marked .generated =
        [.signature (Echo.signatureItem "echo|Lib.M|u|"),
          .structure (Echo.structureItem "echo|Lib.M|t|")] ∧
      ∃ outputs,
        ((nestedUnit echoPlaceholder).sites ⟨["Lib"]⟩).mapM (·.answer echoRegistry) = .ok outputs ∧
          out.marked .generated = outputs.flatten :=
  ⟨_, rfl, rfl, marked_expand echoRegistry_marks (by decide) rfl⟩

/-- **Expansion only inserts.** Without its marked items an expansion is the unit it came from, with
what generators made of placeholders in their places; without placeholders it is the same unit. All
that was made for a site stands in the expansion as it was made. -/
theorem delete_expand (hr : r.Marks m) (hu : ∀ i ∈ u.items, i.span ≠ m)
    (h : u.expand r path = .ok out) :
    (∃ put, (∀ p ∈ u.placeholders, p.answer r = .ok (put p)) ∧ out.delete m = u.fill put) ∧
    (u.placeholders = [] → out.delete m = u) ∧
    ∀ s ∈ u.sites path, ∃ made, s.answer r = .ok made ∧ made <:+: out.marked m := by
  refine ⟨⟨r.put, placeholder_of_expand h, delete_eq_fill hr hu h⟩, fun hnone => ?_,
    fun s hs => ⟨r.edit.after s, answer_of_expand h s hs, ?_⟩⟩
  · rw [delete_eq_fill hr hu h, fill_eq_self r.put hnone]
  · obtain ⟨before, after, hsites⟩ := List.append_of_mem hs
    rw [marked_eq_flatMap hr hu h, hsites, List.flatMap_append, List.flatMap_cons]
    exact ⟨_, _, List.append_assoc _ _ _⟩

/-- Without them, the unit is what it was, with its placeholder filled. -/
theorem delete_expand_nestedUnit :
    ∃ out, (nestedUnit echoPlaceholder).expand echoRegistry .root = .ok out ∧
      out.delete .generated = nestedUnit (Echo.inline "echo" (.named "int" ⟨62, 65⟩)) ∧
      ∃ put, (∀ p ∈ (nestedUnit echoPlaceholder).placeholders,
          p.answer echoRegistry = .ok (put p)) ∧
        out.delete .generated = (nestedUnit echoPlaceholder).fill put :=
  ⟨_, rfl, rfl, (delete_expand echoRegistry_marks (by decide) rfl).1⟩

end SourceUnit

end DeriveKit
