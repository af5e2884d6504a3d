import DeriveKit.Proofs.FirstFault
import DeriveKit.Proofs.Grammar
import DeriveKit.Proofs.Placeholders
import DeriveKit.Proofs.Reporting
import DeriveKit.Proofs.Resolution

/-!
# DeriveKit.Proofs.FailurePlaces

Where failures are. A failure that comes out of an expansion is where a generator says, or at a node
of the source that has to do with it.

* `Request.InEntry`, `Request.InAnnotation`, `InAttributes`, `Point.Node` — these nodes, from the
  inside to the outside;
* `Query.Raises`, `Point.Raises` — the failures of generators themselves;
* `Point.Fails.place` — one of the two is behind every failure of a point;
* `Registry.every_failure_has_a_place` — so if no node is without a place, no failure is.
-/

namespace DeriveKit

/-! ## nodes -/

namespace Request

/-- The places in an entry: its own, those of its arguments, and those of the values of options. -/
inductive InEntry (e : Expr Payload) : Span → Prop
  | entry : InEntry e e.span
  | argument {callee : Expr Payload} {args : List (ArgLabel × Expr Payload)}
    {arg : ArgLabel × Expr Payload} (h : e.shape = .apply callee args) (harg : arg ∈ args) :
    InEntry e arg.2.span
  | value {callee : Expr Payload} {args : List (ArgLabel × Expr Payload)}
    {arg : ArgLabel × Expr Payload} {fields : List Field} {base : Option (Expr Payload)}
    {field : Field} (h : e.shape = .apply callee args) (harg : arg ∈ args)
    (hrecord : arg.2.shape = .record fields base) (hfield : field ∈ fields) :
    InEntry e field.2.span

/-- The places in the expression of an annotation: its own, those in it if it is an entry, and those
in the entries of a tuple. -/
inductive InAnnotation (e : Expr Payload) : Span → Prop
  | expression : InAnnotation e e.span
  | single {span : Span} (h : InEntry e span) : InAnnotation e span
  | member {entries : List (Expr Payload)} {entry : Expr Payload} {span : Span}
    (h : e.shape = .tuple entries) (hentry : entry ∈ entries) (hspan : InEntry entry span) :
    InAnnotation e span

end Request

/-- The places in the annotations among attributes: their own, and those in their expressions. -/
inductive InAttributes (attributes : List (Attribute Payload)) : Span → Prop
  | whole {a : Attribute Payload} (h : a ∈ attributes) (ha : a.isDeriving = true) :
    InAttributes attributes a.span
  | inside {a : Attribute Payload} {e : Expr Payload} {span : Span} (h : a ∈ attributes)
    (ha : a.isDeriving = true) (he : Request.Evaluates a.payload e)
    (hspan : Request.InAnnotation e span) : InAttributes attributes span

/-- The places of a point: those in its annotations, that of the item which is a group, and that of
a placeholder. -/
inductive Point.Node : Point Payload → Span → Prop
  | item {s : Site Payload} {recursion : Recursion} {decls : List (TypeDecl Payload)} {span : Span}
    (h : s.subject = .types recursion decls span) : Node (.site s) span
  | asked {s : Site Payload} {span : Span} (h : InAttributes s.subject.attributes span) :
    Node (.site s) span
  | placeholder (p : Placeholder Payload) : Node (.placeholder p) p.span

/-! ## failures of generators -/

/-- A generator that an annotation asks for fails like this. -/
inductive Query.Raises {α : Type} (r : Registry) (path : ModulePath) (q : Query α) (f : Failure) :
    Prop
  | mk {requests : List Request} {request : Request} {g : Generator}
    (h : Asks q.attributes (.ok requests)) (hmem : request ∈ requests)
    (hg : r.lookup request.name = some g)
    (hask : q.ask path g request.settings = .error (.failure f)) : Raises r path q f

/-- What generators are asked about a subject in a structure. -/
def Subject.structureQuery : Subject Payload → Query (StructureItem Payload)
  | types _ decls _ => .structureTypes decls
  | extension ext => .structureExtension ext

/-- What generators are asked about a subject in a signature. -/
def Subject.signatureQuery : Subject Payload → Query (SignatureItem Payload)
  | types _ decls _ => .signatureTypes decls
  | extension ext => .signatureExtension ext

/-- A generator that is asked at a point fails like this. -/
inductive Point.Raises (r : Registry) : Point Payload → Failure → Prop
  | structure {path : ModulePath} {s : Subject Payload} {f : Failure}
    (h : s.structureQuery.Raises r path f) : Raises r (.site (.structure path s)) f
  | signature {path : ModulePath} {s : Subject Payload} {f : Failure}
    (h : s.signatureQuery.Raises r path f) : Raises r (.site (.signature path s)) f
  | placeholder {p : Placeholder Payload} {t : TypeExpr Payload} {g : Generator} {f : Failure}
    (ht : p.payload.type? = some t) (hg : r.lookup p.name = some g)
    (h : g.inline t = .error (.failure f)) : Raises r (.placeholder p) f

/-! ## reading -/

namespace Request

/-- What is no entry is refused at a place in it. -/
theorem BadEntry.place {e : Expr Payload} {f : Failure} (h : BadEntry e (.failure f)) :
    InEntry e f.span := by
  cases h with
  | other => exact .entry
  | @callee callee args span attributes =>
      exact @InEntry.entry ⟨.apply callee args, span, attributes⟩
  | @arguments callee args span attributes =>
      exact @InEntry.entry ⟨.apply callee args, span, attributes⟩
  | @argument callee arg name span attributes =>
      exact @InEntry.argument ⟨.apply callee _, span, attributes⟩ _ _ _ rfl List.mem_cons_self
  | reserved span attributes hcallee harg =>
      exact .value rfl List.mem_cons_self harg (List.mem_append_right _ List.mem_cons_self)

/-- What no annotation has is refused at a place in it. -/
theorem BadAnnotation.place {e : Expr Payload} {f : Failure} (h : BadAnnotation e (.failure f)) :
    InAnnotation e f.span := by
  cases h with
  | other => exact .expression
  | entry _ h => exact .single h.place
  | entries span attributes _ h =>
      exact .member rfl (List.mem_append_right _ List.mem_cons_self) h.place

/-- A request is where its entry is. -/
theorem Entry.span_eq {e : Expr Payload} {request : Request} (h : Entry e request) :
    request.span = e.span := by
  cases h <;> rfl

/-- The place of a request is that of an entry in the annotation. -/
theorem Annotation.place {e : Expr Payload} {requests : List Request} (h : Annotation e requests)
    {request : Request} (hmem : request ∈ requests) : InAnnotation e request.span := by
  cases h with
  | entry h =>
      rw [List.mem_singleton.1 hmem, h.span_eq]
      exact .expression
  | @entries entries _ span attributes h =>
      obtain ⟨i, rfl⟩ := List.mem_iff_get.1 hmem
      have hi : i.val < entries.length := h.length_eq.symm ▸ i.isLt
      have hentry : Entry (entries.get ⟨i, hi⟩) (requests.get i) := h.get hi i.isLt
      rw [hentry.span_eq]
      exact .member rfl (List.get_mem _ _) .entry

end Request

section Asks

variable {attributes : List (Attribute Payload)}

/-- An annotation that cannot be read is refused at a place in it. -/
theorem Asks.place_of_error {f : Failure} (h : Asks attributes (.error (.failure f))) :
    InAttributes attributes f.span := by
  obtain ⟨before, a, after, rfl, -, ha, hread⟩ := h
  have hmem : a ∈ before ++ a :: after := List.mem_append_right _ List.mem_cons_self
  cases hpayload : a.payload.expr? with
  | none =>
      rw [Request.ofPayload, hpayload] at hread
      cases hread
      exact .whole hmem ha
  | some e =>
      have hbad := (Request.ofPayload_eq_error_iff hpayload).1 hread
      exact .inside hmem ha (Request.expr?_eq_some_iff.1 hpayload) hbad.place

/-- What an annotation asks for is at a place in it. -/
theorem Asks.place_of_mem {requests : List Request} (h : Asks attributes (.ok requests))
    {request : Request} (hmem : request ∈ requests) : InAttributes attributes request.span := by
  obtain ⟨before, a, after, rfl, -, ha, hread⟩ := h
  cases hpayload : a.payload.expr? with
  | none =>
      rw [Request.ofPayload, hpayload] at hread
      cases hread
  | some e =>
      have hrules := (Request.ofPayload_eq_ok_iff hpayload).1 hread
      exact .inside (List.mem_append_right _ List.mem_cons_self) ha
        (Request.expr?_eq_some_iff.1 hpayload) (hrules.place hmem)

/-- A refusal is placed within the attributes that are refused. -/
theorem Refusal.place {names : List String} {f : Failure}
    (h : Refusal names attributes (.failure f)) : InAttributes attributes f.span := by
  cases h with
  | malformed h => exact h.place_of_error
  | unknown h => exact h.place_of_mem (List.mem_append_right _ List.mem_cons_self)

end Asks

/-! ## points -/

/-- A failure to answer an annotation is where a generator says, or at a place in the annotation. -/
theorem Query.place_of_resolve {α : Type} {r : Registry} {path : ModulePath} {q : Query α}
    {f : Failure} (h : q.resolve r path = .error (.failure f)) :
    f.span ≠ .generated ∧ q.Raises r path f ∨ InAttributes q.attributes f.span := by
  cases resolve_eq_iff.1 h with
  | refused h => exact .inr h.place
  | @failed before after request _ hasks _ _ hfault =>
      have hmem : request ∈ before ++ request :: after := List.mem_append_right _ List.mem_cons_self
      cases hfault with
      | failed hg hask hplace =>
          cases hplace with
          | placeless => exact .inr (hasks.place_of_mem hmem)
          | placed hspan => exact .inl ⟨hspan, .mk hasks hmem hg hask⟩
          | breach h => cases h

/-- The same for a placeholder. -/
theorem Registry.place_of_inline {r : Registry} {p : Placeholder Payload} {f : Failure}
    (h : r.inline p.name p.payload p.span = .error (.failure f)) :
    f.span ≠ .generated ∧ Point.Raises r (.placeholder p) f ∨ f.span = p.span := by
  unfold inline at h
  split at h
  · cases h
    exact .inr rfl
  next t ht =>
    split at h
    · cases h
      exact .inr rfl
    next g hg =>
      split at h
      · cases h
      next fault hask =>
        have hplace : fault.orAt p.span = .failure f := Except.error.inj h
        cases Fault.placed_iff.2 hplace with
        | placeless => exact .inr rfl
        | placed hspan => exact .inl ⟨hspan, .placeholder ht hg hask⟩
        | breach h => cases h

/-- A site fails where a generator says, or at a place in its annotation. -/
theorem Query.place_at {α : Type} {r : Registry} {path : ModulePath} {q : Query α} {f : Failure}
    {s : Site Payload} (hs : q.attributes = s.subject.attributes)
    (hraises : q.Raises r path f → Point.Raises r (.site s) f)
    (h : q.resolve r path = .error (.failure f)) :
    f.span ≠ .generated ∧ Point.Raises r (.site s) f ∨ Point.Node (.site s) f.span := by
  obtain ⟨hspan, hown⟩ | hplace := place_of_resolve h
  · exact .inl ⟨hspan, hraises hown⟩
  · rw [hs] at hplace
    exact .inr (.asked hplace)

/-- A point fails where a generator says, or at a place of its own. -/
theorem Point.Fails.place {r : Registry} {p : Point Payload} {f : Failure}
    (h : p.Fails r (.failure f)) : f.span ≠ .generated ∧ p.Raises r f ∨ p.Node f.span := by
  cases h with
  | structureNonrecursive | signatureNonrecursive => exact .inr (.item rfl)
  | @structureTypes path decls _ span h =>
      exact Query.place_at (q := .structureTypes decls) rfl (fun hown => .structure hown) h
  | @signatureTypes path decls _ span h =>
      exact Query.place_at (q := .signatureTypes decls) rfl (fun hown => .signature hown) h
  | @structureExtension path ext _ h =>
      exact Query.place_at (q := .structureExtension ext) rfl (fun hown => .structure hown) h
  | @signatureExtension path ext _ h =>
      exact Query.place_at (q := .signatureExtension ext) rfl (fun hown => .signature hown) h
  | @placeholder name payload span _ h =>
      obtain h | h := Registry.place_of_inline (p := ⟨name, payload, span⟩) h
      · exact .inl h
      · exact .inr (h ▸ .placeholder _)

/-! ## units -/

/-- The places of what a walk meets: those of items, of expressions at any depth, and of the
attributes of annotated declarations, with the expressions in them. -/
inductive Encounter.Place : Encounter Payload → Span → Prop
  | item (names : List String) (i : Item Payload) : Place (.item names i) i.span
  | expr {e part : Expr Payload} (h : part.Within e) : Place (.expr e) part.span
  | ofAttribute {names : List String} {i : Item Payload} {path : ModulePath} {s : Site Payload}
    {a : Attribute Payload} (hs : i.site? path = some s) (ha : a ∈ s.subject.attributes) :
    Place (.item names i) a.span
  | inAttribute {names : List String} {i : Item Payload} {path : ModulePath} {s : Site Payload}
    {a : Attribute Payload} {e part : Expr Payload} (hs : i.site? path = some s)
    (ha : a ∈ s.subject.attributes) (he : Request.Evaluates a.payload e) (h : part.Within e) :
    Place (.item names i) part.span

/-- Nothing in a unit is without a place. -/
def SourceUnit.IsPlaced (u : SourceUnit Payload) : Prop :=
  ∀ e ∈ u.walk, ∀ span, e.Place span → span ≠ .generated

/-- A place in an entry is that of an expression in it. -/
theorem Request.InEntry.within {e : Expr Payload} {span : Span} (h : InEntry e span) :
    ∃ part : Expr Payload, part.Within e ∧ part.span = span := by
  have harg_within {callee : Expr Payload} {args : List (ArgLabel × Expr Payload)}
      {arg : ArgLabel × Expr Payload} (h : e.shape = .apply callee args) (harg : arg ∈ args)
      {part : Expr Payload} (hpart : part.Within arg.2) : part.Within e := by
    refine .part ?_ hpart
    rw [h]
    exact List.mem_cons_of_mem _ (List.mem_map_of_mem harg)
  cases h with
  | entry => exact ⟨e, .self e, rfl⟩
  | argument h harg => exact ⟨_, harg_within h harg (.self _), rfl⟩
  | value h harg hrecord hfield =>
      refine ⟨_, harg_within h harg (.part ?_ (.self _)), rfl⟩
      rw [hrecord]
      exact List.mem_append_right _ (List.mem_map_of_mem hfield)

/-- The places in an annotation are those of expressions in it. -/
theorem Request.InAnnotation.within {e : Expr Payload} {span : Span} (h : InAnnotation e span) :
    ∃ part : Expr Payload, part.Within e ∧ part.span = span := by
  cases h with
  | expression => exact ⟨e, .self e, rfl⟩
  | single h => exact h.within
  | member h hentry hspan =>
      obtain ⟨part, hpart, hplace⟩ := hspan.within
      refine ⟨part, .part ?_ hpart, hplace⟩
      rw [h]
      exact hentry

/-- A group is where its item is, also as a site. -/
theorem Item.span_of_site? {i : Item Payload} {path : ModulePath} {s : Site Payload}
    {recursion : Recursion} {decls : List (TypeDecl Payload)} {span : Span}
    (hs : i.site? path = some s) (h : s.subject = .types recursion decls span) : i.span = span := by
  obtain item | item := i
  · obtain ⟨_, hsubject, rfl⟩ := Option.map_eq_some_iff.1 hs
    cases h
    exact StructureItem.span_of_subject? hsubject
  · obtain ⟨_, hsubject, rfl⟩ := Option.map_eq_some_iff.1 hs
    cases h
    exact SignatureItem.span_of_subject? hsubject

/-- The nodes of the points of a unit are in the unit. -/
theorem SourceUnit.IsPlaced.node {u : SourceUnit Payload} (hu : u.IsPlaced) {path : ModulePath}
    {p : Point Payload} (hp : p ∈ u.points path) {span : Span} (h : p.Node span) :
    span ≠ .generated := by
  obtain ⟨e, he, hp⟩ := List.mem_flatMap.1 hp
  refine hu e he span ?_
  cases e with
  | item names i =>
      obtain ⟨s, hs, rfl⟩ : ∃ s, i.site? (path.within names) = some s ∧ .site s = p := by
        simpa [Encounter.points] using hp
      cases h with
      | item h => exact Item.span_of_site? hs h ▸ .item names i
      | asked h =>
          cases h with
          | whole h => exact .ofAttribute hs h
          | inside h _ he hspan =>
              obtain ⟨part, hpart, rfl⟩ := hspan.within
              exact .inAttribute hs h he hpart
  | expr e =>
      obtain ⟨p, hmem, rfl⟩ := List.mem_map.1 hp
      cases h
      obtain ⟨part, hpart, hstands⟩ := Expr.mem_placeholders_iff.1 hmem
      cases hstands
      exact .expr hpart

/-! ## the result -/

/-- **Every failure has a place.** If nothing in a unit is without a place, neither is the failure
of its expansion: it is where a generator says, or at a node of a point of the unit. The report that
is submitted of a failure is about its place. -/
theorem Registry.every_failure_has_a_place (r : Registry) :
    (∀ (path : ModulePath) (u : SourceUnit Payload) (f : Failure), u.IsPlaced →
      u.expand r path = .error (.failure f) →
      f.span ≠ .generated ∧ ∃ p ∈ u.points path, p.Raises r f ∨ p.Node f.span) ∧
    (∀ (q : Queue) (file : String) (items : List (StructureItem Payload)) (f : Failure),
      (SourceUnit.structure items).expand r (.ofFile file) = .error (.failure f) →
      ∃ d : Diagnostic, d.place? = some f.span ∧
        r.expandStructure q file items = .ok ((q.push d).1, .error .reported)) ∧
    ∀ (q : Queue) (file : String) (items : List (SignatureItem Payload)) (f : Failure),
      (SourceUnit.signature items).expand r (.ofFile file) = .error (.failure f) →
      ∃ d : Diagnostic, d.place? = some f.span ∧
        r.expandSignature q file items = .ok ((q.push d).1, .error .reported) := by
  refine ⟨fun path u f hu h => ?_, fun q file items f h => ?_, fun q file items f h => ?_⟩
  · obtain ⟨before, p, after, hpoints, -, hfails⟩ := SourceUnit.expand_eq_error_iff.1 h
    have hp : p ∈ u.points path := hpoints ▸ List.mem_append_right _ List.mem_cons_self
    obtain ⟨hspan, hraises⟩ | hnode := hfails.place
    · exact ⟨hspan, p, hp, .inl hraises⟩
    · exact ⟨hu.node hp hnode, p, hp, .inr hnode⟩
  · obtain hall | ⟨_, _, hdone⟩ := Outcome.bind_eq_error_iff.1 h
    · rw [expandStructure, hall]
      exact ⟨f.diagnostic, f.tells_diagnostic.place_eq, rfl⟩
    · cases hdone
  · obtain hall | ⟨_, _, hdone⟩ := Outcome.bind_eq_error_iff.1 h
    · rw [expandSignature, hall]
      exact ⟨f.diagnostic, f.tells_diagnostic.place_eq, rfl⟩
    · cases hdone

/-- A generator that answers nothing. -/
def muteRegistry : Registry := .ofList [⟨"echo", none, none, none, none, none⟩]

/-- A group that it is asked for. -/
def muteItems : List (StructureItem Payload) := [.types .recursive [annotatedDecl "t"] ⟨11, 21⟩]

/-- Nothing is without a place there. -/
theorem isPlaced_muteItems : (SourceUnit.structure muteItems).IsPlaced := by
  intro e he span hspan
  cases List.mem_singleton.1 he
  cases hspan with
  | item => decide
  | ofAttribute hs ha =>
      obtain rfl := Option.some.inj hs
      cases List.mem_singleton.1 ha
      decide
  | inAttribute hs ha he hpart =>
      obtain rfl := Option.some.inj hs
      cases List.mem_singleton.1 ha
      have hvar : Request.Evaluates (.ofExpr (.var "echo" ⟨14, 18⟩)) (.var "echo" ⟨14, 18⟩) :=
        ⟨⟨14, 18⟩, Payload.shape_ofShape _⟩
      cases hvar.unique he
      cases hpart with
      | self => decide
      | part h => cases h

/-- The failure is where the entry is, and so is its report. -/
theorem Registry.every_failure_has_a_place_muteItems :
    (SourceUnit.structure muteItems).expand muteRegistry (.ofFile "lib.ml") =
        .error (.failure ⟨.unsupported "echo" .structureTypes, ⟨14, 18⟩⟩) ∧
      (∃ p ∈ (SourceUnit.structure muteItems).points (.ofFile "lib.ml"),
        p.Raises muteRegistry ⟨.unsupported "echo" .structureTypes, ⟨14, 18⟩⟩ ∨
          p.Node ⟨14, 18⟩) ∧
      ∃ d : Diagnostic, d.place? = some ⟨14, 18⟩ ∧
        muteRegistry.expandStructure (.empty none) "lib.ml" muteItems =
          .ok (((Queue.empty none).push d).1, .error .reported) := by
  have hfails : (SourceUnit.structure muteItems).expand muteRegistry (.ofFile "lib.ml") =
      .error (.failure ⟨.unsupported "echo" .structureTypes, ⟨14, 18⟩⟩) := rfl
  exact ⟨hfails, ((every_failure_has_a_place _).1 _ _ _ isPlaced_muteItems hfails).2,
    (every_failure_has_a_place _).2.1 _ _ _ _ hfails⟩

end DeriveKit
