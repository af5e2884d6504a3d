import DeriveKit.Annotation.Resolve
import DeriveKit.Generator.Echo
import DeriveKit.Proofs.Outcome
import DeriveKit.Proofs.Registration

/-!
# DeriveKit.Proofs.Resolution

How an annotation is answered. First it is read and all that it asks for is looked up; if that fails
(`Refusal`), what the generators make does not matter. Then its requests are answered one after the
other (`Query.Answer`), and their items put together, or the first failure given back.
`Query.resolve_eq_iff` is the whole of it, for groups and extensions, in structures and in
signatures.
-/

namespace DeriveKit

/-! ## reading -/

/-- Reading the first annotation among attributes comes to `x`. -/
def Asks (attributes : List (Attribute Payload)) (x : Outcome (List Request)) : Prop :=
  ∃ before a after, attributes = before ++ a :: after ∧
    (∀ b ∈ before, b.isDeriving = false) ∧ a.isDeriving = true ∧
    Request.ofPayload a.payload a.span = x

/-- What is asked for may be answered: it has one of the `names`, or may be passed over. -/
def Request.Admissible (names : List String) (request : Request) : Prop :=
  request.name ∈ names ∨ request.isOptional = true

instance (names : List String) (request : Request) : Decidable (request.Admissible names) := by
  unfold Request.Admissible; infer_instance

/-- Why an annotation is refused before any generator is run: it cannot be read, or some request in
it must be answered and is for a generator that is not there, and then the first such request
counts. -/
inductive Refusal (names : List String) (attributes : List (Attribute Payload)) : Fault → Prop
  | malformed {fault : Fault} (h : Asks attributes (.error fault)) : Refusal names attributes fault
  | unknown {before after : List Request} {request : Request}
    (h : Asks attributes (.ok (before ++ request :: after)))
    (hbefore : ∀ b ∈ before, b.Admissible names) (hname : request.name ∉ names)
    (hrequired : request.isOptional = false) :
    Refusal names attributes (.failure ⟨.unknownGenerator request.name names, request.span⟩)

/-- Attributes hold an annotation, or none of them is one. -/
theorem Asks.exists_or (attributes : List (Attribute Payload)) :
    (∃ x, Asks attributes x) ∨ ∀ a ∈ attributes, a.isDeriving = false := by
  cases hfind : attributes.find? Attribute.isDeriving with
  | none => exact .inr (by simpa using hfind)
  | some a =>
      obtain ⟨ha, before, after, hsplit, hbefore⟩ := List.find?_eq_some_iff_append.1 hfind
      refine .inl ⟨_, before, a, after, hsplit, fun b hb => ?_, ha, rfl⟩
      simpa using hbefore b hb

namespace Registry

variable {r : Registry} {attributes : List (Attribute Payload)}

/-! ## looking up -/

/-- Whether a request may be answered. -/
def accept (r : Registry) (request : Request) : Outcome Unit :=
  if request.Admissible r.names then .ok ()
  else fail (r.unknown request.name) request.span

/-- The generator for a request, if there is one. -/
def found? (r : Registry) (request : Request) : Option (Generator × Request) :=
  (r.lookup request.name).map (·, request)

/-- A request is accepted exactly if it names a known generator or is optional. -/
theorem accept_eq_ok_iff {request : Request} :
    r.accept request = .ok () ↔ request.Admissible r.names := by
  unfold accept
  split
  · next h => exact ⟨fun _ => h, fun _ => rfl⟩
  · next h => exact ⟨nofun, fun h' => absurd h' h⟩

/-- A request that is not accepted is refused as an unknown generator, at its own place. -/
theorem accept_eq_error_iff {request : Request} {fault : Fault} :
    r.accept request = .error fault ↔ request.name ∉ r.names ∧ request.isOptional = false ∧
      fault = .failure ⟨.unknownGenerator request.name r.names, request.span⟩ := by
  unfold accept
  split
  · next h =>
      refine ⟨nofun, fun ⟨hname, hrequired, _⟩ => ?_⟩
      simp [Request.Admissible, hname, hrequired] at h
  · next h =>
      obtain ⟨hname, hrequired⟩ := not_or.1 h
      refine ⟨fun herror => ?_, fun ⟨_, _, hfault⟩ => by rw [hfault]; rfl⟩
      cases herror
      exact ⟨hname, Bool.eq_false_iff.2 hrequired, rfl⟩

/-- Generators are chosen by a check of each request, and a lookup that cannot fail. -/
theorem choose_eq (r : Registry) (requests : List Request) :
    r.choose requests = do forM requests r.accept; return requests.filterMap r.found? := by
  induction requests with
  | nil => rfl
  | cons request rest ih =>
      rw [choose, List.forM_cons, List.filterMap_cons, found?, ih]
      cases hlookup : r.lookup request.name with
      | some g =>
          have haccept : r.accept request = .ok () :=
            accept_eq_ok_iff.2 (.inl (mem_names_iff.2 ⟨g, hlookup⟩))
          rw [haccept]
          cases forM rest r.accept <;> rfl
      | none =>
          have hname : request.name ∉ r.names := lookup_eq_none_iff.1 hlookup
          cases hoptional : request.isOptional with
          | true =>
              rw [accept_eq_ok_iff.2 (.inr hoptional)]
              rfl
          | false =>
              rw [accept_eq_error_iff.2 ⟨hname, hoptional, rfl⟩]
              rfl

/-- What is chosen depends on the first annotation only. -/
theorem resolve_of_asks {x : Outcome (List Request)} (h : Asks attributes x) :
    r.resolve attributes = x >>= r.choose := by
  obtain ⟨before, a, after, hsplit, hbefore, ha, rfl⟩ := h
  have hfind : attributes.find? Attribute.isDeriving = some a :=
    List.find?_eq_some_iff_append.2 ⟨ha, before, after, hsplit, fun b hb => by simp [hbefore b hb]⟩
  rw [resolve, hfind]

/-- Nothing is asked for where no attribute is an annotation. -/
theorem resolve_of_unannotated (h : ∀ a ∈ attributes, a.isDeriving = false) :
    r.resolve attributes = .ok [] := by
  have hfind : attributes.find? Attribute.isDeriving = none := by simpa using h
  rw [resolve, hfind]

end Registry

/-! ## asking -/

/-- Annotated declarations that code is asked for, of items of one type. -/
inductive Query : Type → Type
  | structureTypes (decls : List (TypeDecl Payload)) : Query (StructureItem Payload)
  | structureExtension (ext : TypeExtension Payload) : Query (StructureItem Payload)
  | signatureTypes (decls : List (TypeDecl Payload)) : Query (SignatureItem Payload)
  | signatureExtension (ext : TypeExtension Payload) : Query (SignatureItem Payload)

/-- A failure gets the place of the request if it has none of its own; a type where none like it can
be stays what it is. -/
inductive Fault.Placed (place : Span) : Fault → Fault → Prop
  | placeless (cause : Cause) :
    Placed place (.failure ⟨cause, .generated⟩) (.failure ⟨cause, place⟩)
  | placed {f : Failure} (h : f.span ≠ .generated) : Placed place (.failure f) (.failure f)
  | breach {fault : Fault} (h : fault.breach?.isSome) : Placed place fault fault

/-- `Placed` says on faults what `Fault.orAt` computes. -/
theorem Fault.placed_iff {place : Span} {fault fault' : Fault} :
    Placed place fault fault' ↔ fault.orAt place = fault' := by
  constructor
  · intro h
    cases h with
    | placeless cause => rfl
    | placed h =>
        rw [orAt, Failure.orAt, Span.orElse_of_not_generated (Span.isGenerated_eq_false_iff.2 h)]
    | breach h =>
        cases fault with
        | failure f => cases h
        | parameter t => rfl
        | freeVars t => rfl
  · rintro rfl
    cases fault with
    | failure f =>
        by_cases hspan : f.span = .generated
        · obtain ⟨cause, span⟩ := f
          cases hspan
          exact .placeless cause
        · rw [orAt, Failure.orAt,
            Span.orElse_of_not_generated (Span.isGenerated_eq_false_iff.2 hspan)]
          exact .placed hspan
    | parameter t => exact .breach rfl
    | freeVars t => exact .breach rfl

namespace Query

variable {α : Type}

/-- The attributes among which the annotation is: those of all members of a group, in order. -/
def attributes : Query α → List (Attribute Payload)
  | structureTypes decls | signatureTypes decls => decls.flatMap (·.attributes)
  | structureExtension ext | signatureExtension ext => ext.attributes

/-- What one generator makes of the declarations. -/
def ask (path : ModulePath) (g : Generator) (settings : List Setting) : Query α → Outcome (List α)
  | structureTypes decls => g.structureTypes settings path decls
  | structureExtension ext => g.structureExtension settings path ext
  | signatureTypes decls => g.signatureTypes settings path decls
  | signatureExtension ext => g.signatureExtension settings path ext

/-- What the generators of a registry make of the declarations, as their annotation asks for it. -/
def resolve (r : Registry) (path : ModulePath) : Query α → Outcome (List α)
  | structureTypes decls => r.structureTypes path decls
  | structureExtension ext => r.structureExtension path ext
  | signatureTypes decls => r.signatureTypes path decls
  | signatureExtension ext => r.signatureExtension path ext

variable {r : Registry} {path : ModulePath} {q : Query α}

/-- What comes of one request: what its generator makes with the options of the request, or nothing
if there is no generator. -/
inductive Answer (r : Registry) (path : ModulePath) (q : Query α) (request : Request) :
    Outcome (List α) → Prop
  | absent (h : request.name ∉ r.names) : Answer r path q request (.ok [])
  | made {g : Generator} {part : List α} (hg : r.lookup request.name = some g)
    (h : q.ask path g request.settings = .ok part) : Answer r path q request (.ok part)
  | failed {g : Generator} {fault fault' : Fault} (hg : r.lookup request.name = some g)
    (h : q.ask path g request.settings = .error fault)
    (hplace : fault.Placed request.span fault') : Answer r path q request (.error fault')

/-- What comes of an annotation. -/
inductive Resolution (r : Registry) (path : ModulePath) (q : Query α) : Outcome (List α) → Prop
  | unannotated (h : ∀ a ∈ q.attributes, a.isDeriving = false) : Resolution r path q (.ok [])
  | refused {fault : Fault} (h : Refusal r.names q.attributes fault) :
    Resolution r path q (.error fault)
  | answered {requests : List Request} {parts : List (List α)}
    (h : Asks q.attributes (.ok requests)) (hadmissible : ∀ b ∈ requests, b.Admissible r.names)
    (hparts : List.Forall₂ (fun b part => Answer r path q b (.ok part)) requests parts) :
    Resolution r path q (.ok parts.flatten)
  | failed {before after : List Request} {request : Request} {fault : Fault}
    (h : Asks q.attributes (.ok (before ++ request :: after)))
    (hadmissible : ∀ b ∈ before ++ request :: after, b.Admissible r.names)
    (hbefore : ∀ b ∈ before, ∃ part, Answer r path q b (.ok part))
    (hfault : Answer r path q request (.error fault)) : Resolution r path q (.error fault)

/-! ## answering -/

/-- The outcome of one request. -/
def answer (r : Registry) (path : ModulePath) (q : Query α) (request : Request) :
    Outcome (List α) :=
  match r.lookup request.name with
  | none => .ok []
  | some g => (q.ask path g request.settings).mapError (·.orAt request.span)

/-- An optional request for a generator that is not there is answered with no items. -/
theorem answer_of_absent {request : Request} (h : r.lookup request.name = none) :
    q.answer r path request = .ok [] := by
  rw [answer, h]

/-- The generator that is found answers, and its failure is put at the request if it has no
place. -/
theorem answer_of_found {request : Request} {g : Generator}
    (h : r.lookup request.name = some g) :
    q.answer r path request =
      (q.ask path g request.settings).mapError (·.orAt request.span) := by
  rw [answer, h]

/-- `Answer` says of one request what `Query.answer` computes. -/
theorem answer_eq_iff {request : Request} {x : Outcome (List α)} :
    q.answer r path request = x ↔ Answer r path q request x := by
  constructor
  · rintro rfl
    cases hlookup : r.lookup request.name with
    | none =>
        rw [answer_of_absent hlookup]
        exact .absent (Registry.lookup_eq_none_iff.1 hlookup)
    | some g =>
        rw [answer_of_found hlookup]
        cases hask : q.ask path g request.settings with
        | ok part => exact .made hlookup hask
        | error fault => exact .failed hlookup hask (Fault.placed_iff.2 rfl)
  · intro h
    cases h with
    | absent h => exact answer_of_absent (Registry.lookup_eq_none_iff.2 h)
    | made hg h => rw [answer_of_found hg, h]; rfl
    | failed hg h hplace => rw [answer_of_found hg, h, ← Fault.placed_iff.1 hplace]; rfl

/-- The generators that are chosen give the answers to the requests. -/
theorem runAll_found (q : Query α) (r : Registry) (path : ModulePath) (requests : List Request) :
    Registry.runAll (fun g settings => q.ask path g settings) (requests.filterMap r.found?) =
      List.flatten <$> requests.mapM (q.answer r path) := by
  induction requests with
  | nil => rfl
  | cons request rest ih =>
      rw [List.mapM_cons, List.filterMap_cons, Registry.found?]
      cases hlookup : r.lookup request.name with
      | none =>
          rw [answer_of_absent hlookup]
          refine ih.trans ?_
          cases rest.mapM (q.answer r path) <;> rfl
      | some g =>
          rw [answer_of_found hlookup, Option.map_some, Registry.runAll, ih]
          cases q.ask path g request.settings with
          | error fault => rfl
          | ok part => cases rest.mapM (q.answer r path) <;> rfl

/-! ## resolution -/

/-- A query is resolved by choosing the generators first and running them afterwards. -/
theorem resolve_eq (q : Query α) (r : Registry) (path : ModulePath) :
    q.resolve r path = r.resolve q.attributes >>=
      Registry.runAll fun g settings => q.ask path g settings := by
  cases q <;> rfl

/-- A query whose attributes hold no annotation has no items. -/
theorem resolve_of_unannotated (h : ∀ a ∈ q.attributes, a.isDeriving = false) :
    q.resolve r path = .ok [] := by
  rw [resolve_eq, Registry.resolve_of_unannotated h]
  rfl

/-- A fault in reading the annotation is the answer, whatever the generators do. -/
theorem resolve_of_malformed {fault : Fault} (h : Asks q.attributes (.error fault)) :
    q.resolve r path = .error fault := by
  rw [resolve_eq, Registry.resolve_of_asks h]
  rfl

/-- The requests of an annotation are all checked, and then answered. -/
theorem resolve_of_asks {requests : List Request} (h : Asks q.attributes (.ok requests)) :
    q.resolve r path =
      forM requests r.accept >>= fun _ => List.flatten <$> requests.mapM (q.answer r path) := by
  rw [resolve_eq, Registry.resolve_of_asks h, ← runAll_found]
  show r.choose requests >>= _ = _
  rw [Registry.choose_eq]
  cases forM requests r.accept <;> rfl

/-- What `Query.resolve` computes is a resolution. -/
theorem resolution_resolve (q : Query α) (r : Registry) (path : ModulePath) :
    Resolution r path q (q.resolve r path) := by
  obtain ⟨x, hasks⟩ | hnone := Asks.exists_or q.attributes
  · cases x with
    | error fault =>
        rw [resolve_of_malformed hasks]
        exact .refused (.malformed hasks)
    | ok requests =>
        rw [resolve_of_asks hasks]
        cases haccept : forM requests r.accept with
        | error fault =>
            obtain ⟨before, request, after, rfl, hbefore, hrequest⟩ :=
              Outcome.forM_eq_error_iff.1 haccept
            obtain ⟨hname, hrequired, rfl⟩ := Registry.accept_eq_error_iff.1 hrequest
            exact .refused (.unknown hasks (fun b hb => Registry.accept_eq_ok_iff.1 (hbefore b hb))
              hname hrequired)
        | ok _ =>
            have hadmissible : ∀ b ∈ requests, b.Admissible r.names := fun b hb =>
              Registry.accept_eq_ok_iff.1 (Outcome.forM_eq_ok_iff.1 haccept b hb)
            cases hanswers : requests.mapM (q.answer r path) with
            | error fault =>
                obtain ⟨before, request, after, rfl, hbefore, hrequest⟩ :=
                  Outcome.mapM_eq_error_iff.1 hanswers
                refine .failed hasks hadmissible (fun b hb => ?_) (answer_eq_iff.1 hrequest)
                obtain ⟨part, hpart⟩ := hbefore b hb
                exact ⟨part, answer_eq_iff.1 hpart⟩
            | ok parts =>
                have hparts := Outcome.mapM_eq_ok_iff.1 hanswers
                exact .answered hasks hadmissible (hparts.imp fun _ _ => answer_eq_iff.1)
  · rw [resolve_of_unannotated hnone]
    exact .unannotated hnone

/-- There is no other resolution than the one that is computed. -/
theorem Resolution.resolve_eq {x : Outcome (List α)} (h : Resolution r path q x) :
    q.resolve r path = x := by
  cases h with
  | unannotated h => exact resolve_of_unannotated h
  | refused h =>
      cases h with
      | malformed h => exact resolve_of_malformed h
      | unknown h hbefore hname hrequired =>
          rw [resolve_of_asks h, Outcome.forM_eq_error_iff.2 ⟨_, _, _, rfl,
            fun b hb => Registry.accept_eq_ok_iff.2 (hbefore b hb),
            Registry.accept_eq_error_iff.2 ⟨hname, hrequired, rfl⟩⟩]
          rfl
  | answered h hadmissible hparts =>
      rw [resolve_of_asks h,
        Outcome.forM_eq_ok_iff.2 fun b hb => Registry.accept_eq_ok_iff.2 (hadmissible b hb),
        Outcome.mapM_eq_ok_iff.2 (hparts.imp fun _ _ => answer_eq_iff.2)]
      rfl
  | @failed before after request fault h hadmissible hbefore hfault =>
      have hanswers : (before ++ request :: after).mapM (q.answer r path) = .error fault :=
        Outcome.mapM_eq_error_iff.2 ⟨before, request, after, rfl,
          fun b hb => (hbefore b hb).imp fun _ => answer_eq_iff.2, answer_eq_iff.2 hfault⟩
      rw [resolve_of_asks h,
        Outcome.forM_eq_ok_iff.2 fun b hb => Registry.accept_eq_ok_iff.2 (hadmissible b hb),
        hanswers]
      rfl

/-- What the generators make of declarations is what comes of their annotation. -/
theorem resolve_eq_iff {x : Outcome (List α)} :
    q.resolve r path = x ↔ Resolution r path q x :=
  ⟨fun h => h ▸ resolution_resolve q r path, Resolution.resolve_eq⟩

/-- **An annotation is resolved as a whole.** With the generators that were registered, it comes to
what the rules say and to nothing else; the names that are told of are those of all generators, in
order; and if it is refused, then in the same way by all registries of these names, whatever their
generators make. -/
theorem resolves_as_a_whole (generators : List Generator) (path : ModulePath) (q : Query α) :
    (∀ x, q.resolve (.ofList generators) path = x ↔
      Resolution (.ofList generators) path q x) ∧
    (Registry.ofList generators).names.Pairwise (· < ·) ∧
    (∀ name, name ∈ (Registry.ofList generators).names ↔ ∃ g ∈ generators, g.name = name) ∧
    ∀ (fault : Fault) (generators' : List Generator) (path' : ModulePath),
      (∀ name, (∃ g ∈ generators, g.name = name) ↔ ∃ g ∈ generators', g.name = name) →
      Refusal (Registry.ofList generators).names q.attributes fault →
      q.resolve (.ofList generators) path = .error fault ∧
        q.resolve (.ofList generators') path' = .error fault := by
  have hmem (history : List Generator) (name : String) :
      name ∈ (Registry.ofList history).names ↔ ∃ g ∈ history, g.name = name :=
    (Registry.after_ofList history).mem_names_iff
  refine ⟨fun x => resolve_eq_iff, Registry.names_pairwise _, hmem generators,
    fun fault generators' path' hnames hrefusal => ⟨?_, ?_⟩⟩
  · exact resolve_eq_iff.2 (.refused hrefusal)
  · have hsame : (Registry.ofList generators).names = (Registry.ofList generators').names :=
      Registry.names_congr fun name => by rw [hmem, hmem, hnames]
    rw [hsame] at hrefusal
    exact resolve_eq_iff.2 (.refused hrefusal)

/-- A group whose annotation asks for a generator that fails and for one that is not there. -/
def missingQuery : Query (StructureItem Payload) :=
  .structureTypes [{ TypeDecl.abstract "t" ⟨5, 20⟩ with
    attributes := [.withExpr "deriving"
      (.tuple [.var "fail" ⟨10, 14⟩, .var "show" ⟨16, 20⟩] ⟨10, 20⟩)] }]

/-- Only what is there by name matters: the failure of the first generator does not show. -/
theorem resolves_as_a_whole_missingQuery :
    missingQuery.resolve (.ofList [⟨"fail", none, none, none, none, none⟩]) .root =
        .error (.failure ⟨.unknownGenerator "show" ["fail"], ⟨16, 20⟩⟩) ∧
      missingQuery.resolve (.ofList [.echo "fail"]) .root =
        .error (.failure ⟨.unknownGenerator "show" ["fail"], ⟨16, 20⟩⟩) := by
  have hasks : Asks missingQuery.attributes
      (.ok ([⟨"fail", ⟨10, 14⟩, [], false⟩] ++ [⟨"show", ⟨16, 20⟩, [], false⟩])) :=
    ⟨[], _, [], rfl, nofun, rfl, rfl⟩
  have hnames : (Registry.ofList [⟨"fail", none, none, none, none, none⟩]).names = ["fail"] :=
    Registry.names_ofList_singleton _
  have hrefusal : Refusal (Registry.ofList [⟨"fail", none, none, none, none, none⟩]).names
      missingQuery.attributes (.failure ⟨.unknownGenerator "show" ["fail"], ⟨16, 20⟩⟩) := by
    rw [hnames]
    exact .unknown hasks (by simp [Request.Admissible]) (by decide) rfl
  exact (resolves_as_a_whole [⟨"fail", none, none, none, none, none⟩] .root missingQuery).2.2.2
    _ [.echo "fail"] .root (fun name => by simp [Generator.echo]) hrefusal

end Query

end DeriveKit
