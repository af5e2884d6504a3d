import DeriveKit.Proofs.Agreement
import DeriveKit.Proofs.Expansion
import DeriveKit.Proofs.Generated
import DeriveKit.Proofs.Resolution

/-!
# DeriveKit.Proofs.Mentioned

What an expansion can learn from a registry: which generators there are under the names that the
unit mentions (`SourceUnit.mentioned`), and, if one of them is missing, the list of all names. So
registries that agree on the names mentioned (`Registry.SameNames`) expand a unit alike, up to that
list (`SourceUnit.expand_congr`). Two outcomes are `Alike` in a view of faults if they have the same
value or faults that look the same; the view here leaves out the list (`Fault.withoutKnown`).
-/

namespace DeriveKit

/-! ## outcomes that look alike -/

namespace Outcome

variable {α β : Type} {view : Fault → Fault}

/-- Two outcomes with the same value, or with faults that look the same. -/
def Alike (view : Fault → Fault) (x y : Outcome α) : Prop := x.mapError view = y.mapError view

/-- Everything is like itself (`Outcome.Alike`). -/
theorem Alike.rfl {x : Outcome α} : Alike view x x := Eq.refl _

/-- A success is like itself only. -/
theorem alike_ok_iff {a : α} {y : Outcome α} : Alike view (.ok a) y ↔ y = .ok a := by
  cases y with
  | ok b => exact ⟨fun h => by cases h; rfl, fun h => by cases h; rfl⟩
  | error fault => exact ⟨nofun, nofun⟩

/-- A fault is like those that are seen in the same way. -/
theorem alike_error_iff {fault : Fault} {y : Outcome α} :
    Alike view (.error fault) y ↔ ∃ fault', y = .error fault' ∧ view fault = view fault' := by
  cases y with
  | ok b => exact ⟨nofun, fun ⟨_, h, _⟩ => nomatch h⟩
  | error fault' =>
      refine ⟨fun h => ⟨fault', Eq.refl _, Except.error.inj h⟩, fun ⟨_, h, hview⟩ => ?_⟩
      cases h
      exact congrArg Except.error hview

/-- Steps that are alike may follow on each other. -/
theorem Alike.bind {x y : Outcome α} {f g : α → Outcome β} (h : Alike view x y)
    (hf : ∀ a, Alike view (f a) (g a)) : Alike view (x >>= f) (y >>= g) := by
  cases x with
  | ok a =>
      obtain rfl := alike_ok_iff.1 h
      exact hf a
  | error fault =>
      obtain ⟨fault', rfl, hview⟩ := alike_error_iff.1 h
      exact congrArg Except.error hview

/-- The results of steps that are alike may be changed in one way. -/
theorem Alike.map {x y : Outcome α} (h : Alike view x y) (f : α → β) :
    Alike view (f <$> x) (f <$> y) := by
  cases x with
  | ok a =>
      obtain rfl := alike_ok_iff.1 h
      exact .rfl
  | error fault =>
      obtain ⟨fault', rfl, hview⟩ := alike_error_iff.1 h
      exact congrArg Except.error hview

/-- Their checks are alike. -/
theorem Alike.check {x y : Outcome α} (h : Alike view x y) : Alike view x.check y.check :=
  h.map fun _ => ()

/-- Their values are equal, since a fault has none. -/
theorem Alike.valueOr_eq {x y : Outcome α} (h : Alike view x y) (default : α) :
    x.valueOr default = y.valueOr default := by
  cases x with
  | ok a => rw [alike_ok_iff.1 h]
  | error fault =>
      obtain ⟨fault', rfl, -⟩ := alike_error_iff.1 h
      rfl

/-- Steps that look alike one by one look alike together. -/
theorem alike_mapM {f g : α → Outcome β} {l : List α} (h : ∀ a ∈ l, Alike view (f a) (g a)) :
    Alike view (l.mapM f) (l.mapM g) := by
  induction l with
  | nil => exact .rfl
  | cons a l ih =>
      obtain ⟨ha, hl⟩ := List.forall_mem_cons.1 h
      rw [List.mapM_cons, List.mapM_cons]
      exact ha.bind fun b => (ih hl).map (b :: ·)

/-- Steps that are alike one by one are alike for a list. -/
theorem alike_forM {f g : α → Outcome Unit} {l : List α} (h : ∀ a ∈ l, Alike view (f a) (g a)) :
    Alike view (forM l f) (forM l g) := by
  induction l with
  | nil => exact .rfl
  | cons a l ih =>
      obtain ⟨ha, hl⟩ := List.forall_mem_cons.1 h
      rw [List.forM_cons, List.forM_cons]
      exact ha.bind fun _ => ih hl

end Outcome

/-! ## names written -/

/-- What the annotation of a subject asks for; nothing, if it cannot be read. -/
def Subject.requests (s : Subject Payload) : List Request :=
  (s.attributes.find? Attribute.isDeriving).elim [] fun a =>
    (Request.ofPayload a.payload a.span).valueOr []

/-- The names of generators written at a point: the entries of an annotation, or the name of a
placeholder. -/
def Point.names : Point Payload → List String
  | .site s => s.subject.requests.map (·.name)
  | .placeholder p => [p.name]

/-- The names of generators written in a unit. -/
def SourceUnit.mentioned (path : ModulePath) (u : SourceUnit Payload) : List String :=
  (u.points path).flatMap (·.names)

/-- An annotation that is read asks for what is read. -/
theorem Subject.requests_of_asks {s : Subject Payload} {requests : List Request}
    (h : Asks s.attributes (.ok requests)) : s.requests = requests := by
  obtain ⟨before, a, after, hsplit, hbefore, ha, hread⟩ := h
  have hfind : s.attributes.find? Attribute.isDeriving = some a :=
    List.find?_eq_some_iff_append.2 ⟨ha, before, after, hsplit, fun b hb => by simp [hbefore b hb]⟩
  rw [Subject.requests, hfind, Option.elim_some, hread]
  rfl

/-! ## answers -/

section Answers

open Outcome

variable {view : Fault → Fault} {r r' : Registry}

/-- The lists of names of two registries cannot be told from each other. -/
def Registry.SameNames (view : Fault → Fault) (r r' : Registry) : Prop :=
  ∀ name span,
    view (.failure ⟨r.unknown name, span⟩) = view (.failure ⟨r'.unknown name, span⟩)

/-- A request is accepted alike if its generator is the same; if there is none, the failures differ
in the list of names. -/
theorem Registry.accept_alike (hnames : SameNames view r r') {request : Request}
    (h : r.lookup request.name = r'.lookup request.name) :
    Alike view (r.accept request) (r'.accept request) := by
  have hadmissible : request.Admissible r.names ↔ request.Admissible r'.names := by
    rw [Request.Admissible, Request.Admissible, mem_names_iff, mem_names_iff, h]
  by_cases hr : request.Admissible r.names
  · rw [accept, accept, if_pos hr, if_pos (hadmissible.1 hr)]
    exact .rfl
  · rw [accept, accept, if_neg hr, if_neg (mt hadmissible.2 hr)]
    exact congrArg Except.error (hnames request.name request.span)

/-- What comes of an annotation depends on the generators for its entries. -/
theorem Query.resolve_alike (hnames : r.SameNames view r') {α : Type} (q : Query α)
    (path : ModulePath)
    (h : ∀ requests, Asks q.attributes (.ok requests) → ∀ request ∈ requests,
      r.lookup request.name = r'.lookup request.name) :
    Alike view (q.resolve r path) (q.resolve r' path) := by
  obtain ⟨x, hasks⟩ | hnone := Asks.exists_or q.attributes
  · cases x with
    | error fault =>
        rw [resolve_of_malformed hasks, resolve_of_malformed hasks]
        exact .rfl
    | ok requests =>
        have hlookup := h requests hasks
        have hanswer : ∀ request ∈ requests,
            Alike view (q.answer r path request) (q.answer r' path request) := by
          intro request hrequest
          rw [answer, answer, hlookup request hrequest]
          exact .rfl
        rw [resolve_of_asks hasks, resolve_of_asks hasks]
        refine (alike_forM fun request hrequest => ?_).bind fun _ => (alike_mapM hanswer).map _
        exact Registry.accept_alike hnames (hlookup request hrequest)
  · rw [resolve_of_unannotated hnone, resolve_of_unannotated hnone]
    exact .rfl

/-- A placeholder is answered alike if its generator is the same. -/
theorem Placeholder.answer_alike (hnames : r.SameNames view r') {p : Placeholder Payload}
    (h : r.lookup p.name = r'.lookup p.name) : Alike view (p.answer r) (p.answer r') := by
  rw [answer, answer, Registry.inline, Registry.inline]
  cases p.payload.type? with
  | none => exact .rfl
  | some t =>
      cases hlookup : r.lookup p.name with
      | some g =>
          rw [← h, hlookup]
          exact .rfl
      | none =>
          rw [← h, hlookup]
          exact congrArg Except.error (hnames p.name p.span)

section

variable {path : ModulePath} {s : Subject Payload}

/-- A query about a subject asks for what its annotation does. -/
theorem Subject.lookup_of_asks (h : ∀ request ∈ s.requests,
      r.lookup request.name = r'.lookup request.name) (requests : List Request)
    (hasks : Asks s.attributes (.ok requests)) :
    ∀ request ∈ requests, r.lookup request.name = r'.lookup request.name := by
  rw [← requests_of_asks hasks]
  exact h

/-- A declaration in a structure is answered alike if the generators that it asks for are the
same. -/
theorem Subject.structureAnswer_alike (hnames : r.SameNames view r')
    (h : ∀ request ∈ s.requests, r.lookup request.name = r'.lookup request.name) :
    Alike view (s.structureAnswer r path) (s.structureAnswer r' path) :=
  match s with
  | .types .recursive decls _ =>
      (Query.structureTypes decls).resolve_alike hnames path (lookup_of_asks h)
  | .types .nonrecursive _ _ => .rfl
  | .extension ext => (Query.structureExtension ext).resolve_alike hnames path (lookup_of_asks h)

/-- A declaration in a signature is answered alike if the generators that it asks for are the
same. -/
theorem Subject.signatureAnswer_alike (hnames : r.SameNames view r')
    (h : ∀ request ∈ s.requests, r.lookup request.name = r'.lookup request.name) :
    Alike view (s.signatureAnswer r path) (s.signatureAnswer r' path) :=
  match s with
  | .types .recursive decls _ =>
      (Query.signatureTypes decls).resolve_alike hnames path (lookup_of_asks h)
  | .types .nonrecursive _ _ => .rfl
  | .extension ext => (Query.signatureExtension ext).resolve_alike hnames path (lookup_of_asks h)

end

/-! ## expansions -/

variable {path : ModulePath} {u : SourceUnit Payload}

/-- Every point is checked alike if the generators that it mentions are the same (`Point.names`). -/
theorem Point.check_alike (hnames : r.SameNames view r') {p : Point Payload}
    (h : ∀ name ∈ p.names, r.lookup name = r'.lookup name) :
    Alike view (p.check r) (p.check r') :=
  match p with
  | .site (.structure _ s) =>
      ((s.structureAnswer_alike hnames (List.forall_mem_map.1 h)).map
        (List.map Item.structure)).check
  | .site (.signature _ s) =>
      ((s.signatureAnswer_alike hnames (List.forall_mem_map.1 h)).map
        (List.map Item.signature)).check
  | .placeholder q => (q.answer_alike hnames (h _ (List.mem_singleton_self _))).check

/-- What is put in the place of a placeholder depends on the generator of its name. -/
theorem Registry.put_congr (hnames : r.SameNames view r') {p : Placeholder Payload}
    (h : r.lookup p.name = r'.lookup p.name) : r.put p = r'.put p :=
  (p.answer_alike hnames h).valueOr_eq _

/-- The edits of two expansions agree where the registries do. -/
theorem Registry.edit_agreeAt (hnames : r.SameNames view r') {e : Encounter Payload}
    (h : ∀ p ∈ e.points path, ∀ name ∈ p.names, r.lookup name = r'.lookup name) :
    r.edit.AgreeAt r'.edit path e := by
  match e with
  | .item names (.structure item) =>
      refine ⟨rfl, fun s hs => ?_⟩
      rw [Encounter.points, Item.site?, Option.mem_def.1 hs] at h
      have hnamed := List.forall_mem_map.1 (h _ (List.mem_singleton_self _))
      exact (s.structureAnswer_alike hnames hnamed).valueOr_eq []
  | .item names (.signature item) =>
      refine ⟨rfl, fun s hs => ?_⟩
      rw [Encounter.points, Item.site?, Option.mem_def.1 hs] at h
      have hnamed := List.forall_mem_map.1 (h _ (List.mem_singleton_self _))
      exact (s.signatureAnswer_alike hnames hnamed).valueOr_eq []
  | .expr e =>
      exact e.replaceOutermost_congr fun p hp =>
        put_congr hnames (h _ (List.mem_map_of_mem hp) _ (List.mem_singleton_self _))

/-- **Expansions know the names mentioned.** Registries that agree on them, and whose lists of names
look the same, expand a unit alike. -/
theorem SourceUnit.expand_congr (hnames : r.SameNames view r')
    (h : ∀ name ∈ u.mentioned path, r.lookup name = r'.lookup name) :
    Alike view (u.expand r path) (u.expand r' path) := by
  have hpoint : ∀ p ∈ u.points path, ∀ name ∈ p.names, r.lookup name = r'.lookup name :=
    fun p hp name hname => h name (List.mem_flatMap.2 ⟨p, hp, hname⟩)
  have hedit : u.edit r.edit path = u.edit r'.edit path :=
    u.edit_congr path fun e he => Registry.edit_agreeAt hnames fun p hp =>
      hpoint p (List.mem_flatMap.2 ⟨e, he, hp⟩)
  rw [expand_eq, expand_eq, hedit]
  exact (alike_forM fun p hp => Point.check_alike hnames (hpoint p hp)).bind fun _ => .rfl

end Answers

/-! ## generators that are not mentioned -/

/-- The fault, whatever the names of all generators were. -/
def Fault.withoutKnown : Fault → Fault
  | .failure ⟨.unknownGenerator name _, span⟩ => .failure ⟨.unknownGenerator name [], span⟩
  | fault => fault

/-- **Generators that are not mentioned do not matter.** With registries that agree on all names
written in a unit, it is expanded alike, or fails alike up to the list of the names of all
generators. -/
theorem SourceUnit.expansion_ignores_unmentioned {r r' : Registry} {path : ModulePath}
    {u : SourceUnit Payload} (h : ∀ name ∈ u.mentioned path, r.lookup name = r'.lookup name) :
    (∃ out, u.expand r path = .ok out ∧ u.expand r' path = .ok out) ∨
    ∃ fault fault', u.expand r path = .error fault ∧ u.expand r' path = .error fault' ∧
      fault.withoutKnown = fault'.withoutKnown := by
  have halike : Outcome.Alike Fault.withoutKnown (u.expand r path) (u.expand r' path) :=
    expand_congr (fun _ _ => rfl) h
  cases hexpand : u.expand r path with
  | ok out =>
      rw [hexpand] at halike
      exact .inl ⟨out, rfl, Outcome.alike_ok_iff.1 halike⟩
  | error fault =>
      rw [hexpand] at halike
      obtain ⟨fault', hexpand', hview⟩ := Outcome.alike_error_iff.1 halike
      exact .inr ⟨fault, fault', rfl, hexpand', hview⟩

/-- Another generator shows in the list of names alone. -/
theorem SourceUnit.expansion_ignores_unmentioned_nestedUnit :
    (∀ name ∈ (nestedUnit echoPlaceholder).mentioned .root,
      Registry.empty.lookup name = (Registry.ofList [.echo "other"]).lookup name) ∧
    (nestedUnit echoPlaceholder).expand .empty .root =
      .error (.failure ⟨.unknownGenerator "echo" [], ⟨14, 18⟩⟩) ∧
    (nestedUnit echoPlaceholder).expand (.ofList [.echo "other"]) .root =
      .error (.failure ⟨.unknownGenerator "echo" ["other"], ⟨14, 18⟩⟩) ∧
    ((∃ out, (nestedUnit echoPlaceholder).expand .empty .root = .ok out ∧
        (nestedUnit echoPlaceholder).expand (.ofList [.echo "other"]) .root = .ok out) ∨
      ∃ fault fault', (nestedUnit echoPlaceholder).expand .empty .root = .error fault ∧
        (nestedUnit echoPlaceholder).expand (.ofList [.echo "other"]) .root = .error fault' ∧
        fault.withoutKnown = fault'.withoutKnown) := by
  have hlookup : ∀ name ∈ (nestedUnit echoPlaceholder).mentioned .root,
      Registry.empty.lookup name = (Registry.ofList [.echo "other"]).lookup name :=
    List.forall_mem_cons.2 ⟨rfl, List.forall_mem_cons.2 ⟨rfl, List.forall_mem_singleton.2 rfl⟩⟩
  have hnone : (nestedUnit echoPlaceholder).expand .empty .root =
      .error (.failure ⟨.unknownGenerator "echo" Registry.empty.names, ⟨14, 18⟩⟩) := rfl
  have hknown : (nestedUnit echoPlaceholder).expand (.ofList [.echo "other"]) .root =
      .error (.failure ⟨.unknownGenerator "echo" (Registry.ofList [.echo "other"]).names,
        ⟨14, 18⟩⟩) := rfl
  rw [Registry.names_empty] at hnone
  rw [Registry.names_ofList_singleton] at hknown
  exact ⟨hlookup, hnone, hknown, expansion_ignores_unmentioned hlookup⟩

end DeriveKit
