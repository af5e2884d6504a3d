import DeriveKit.Proofs.Grammar
import DeriveKit.Proofs.Points
import DeriveKit.Proofs.Resolution

/-!
# DeriveKit.Proofs.Unavailable

Optional entries for generators that are not there. They are passed over wherever they stand among
the entries of an annotation, so an annotation comes to the same without them.

* `Trims` — a list and what is left of it;
* `Registry.entries_trimmed`, `Registry.choose_trimmed` — reading and choosing, with and without;
* `Registry.unavailable_entries_leave_no_trace` — the result.
-/

namespace DeriveKit

/-- The second list is the first without some of its members, for each of which `p` holds. -/
inductive Trims {α : Type} (p : α → Prop) : List α → List α → Prop
  | nil : Trims p [] []
  | keep (a : α) {l l' : List α} (h : Trims p l l') : Trims p (a :: l) (a :: l')
  | drop {a : α} {l l' : List α} (ha : p a) (h : Trims p l l') : Trims p (a :: l) l'

/-- A list may be trimmed to nothing if all its members may be left out. -/
theorem Trims.of_forall {α : Type} {p : α → Prop} {l : List α}
    (h : ∀ a ∈ l, p a) : Trims p l [] := by
  induction l with
  | nil => exact .nil
  | cons a l ih =>
      obtain ⟨ha, hl⟩ := List.forall_mem_cons.1 h
      exact .drop ha (ih hl)

/-- The first annotation among attributes is a tuple of the given entries. -/
def AsksTuple (attributes : List (Attribute Payload)) (entries : List (Expr Payload)) : Prop :=
  ∃ before a after span nodeAttributes, attributes = before ++ a :: after ∧
    (∀ b ∈ before, b.isDeriving = false) ∧ a.isDeriving = true ∧
    Request.Evaluates a.payload ⟨.tuple entries, span, nodeAttributes⟩

/-- Such an annotation is read entry by entry. -/
theorem AsksTuple.asks {attributes : List (Attribute Payload)} {entries : List (Expr Payload)}
    (h : AsksTuple attributes entries) : Asks attributes (entries.mapM Request.ofEntry) := by
  obtain ⟨before, a, after, span, nodeAttributes, hsplit, hbefore, ha, hpayload⟩ := h
  exact ⟨before, a, after, hsplit, hbefore, ha,
    Request.ofPayload_of_tuple (Request.expr?_eq_some_iff.2 hpayload) _⟩

namespace Registry

variable {r : Registry}

/-- A request that is passed over: it is optional, and its generator is not there. -/
def Lacks (r : Registry) (request : Request) : Prop :=
  request.isOptional = true ∧ request.name ∉ r.names

/-- An entry that is passed over. -/
def LacksEntry (r : Registry) (e : Expr Payload) : Prop :=
  ∃ request, Request.Entry e request ∧ r.Lacks request

/-! ## with and without -/

/-- A request that the registry lacks is passed over. -/
theorem choose_of_lacks {request : Request} (h : r.Lacks request) (rest : List Request) :
    r.choose (request :: rest) = r.choose rest := by
  have hlookup : r.lookup request.name = none := lookup_eq_none_iff.2 h.2
  rw [choose, hlookup, h.1]
  rfl

/-- Requests that are passed over do not shift or hide what is chosen or refused. -/
theorem choose_trimmed {requests requests' : List Request} (h : Trims r.Lacks requests requests') :
    r.choose requests' = r.choose requests := by
  induction h with
  | nil => rfl
  | keep request h ih => rw [choose, choose, ih]
  | drop hlacks h ih => rw [choose_of_lacks hlacks, ih]

/-- Entries are read as before if some that are passed over are gone: they are refused for the same
one, or what they ask for is without some requests that are passed over. -/
theorem entries_trimmed {entries entries' : List (Expr Payload)}
    (h : Trims r.LacksEntry entries entries') :
    (∃ fault, entries.mapM Request.ofEntry = .error fault ∧
      entries'.mapM Request.ofEntry = .error fault) ∨
    ∃ requests requests', entries.mapM Request.ofEntry = .ok requests ∧
      entries'.mapM Request.ofEntry = .ok requests' ∧ Trims r.Lacks requests requests' := by
  induction h with
  | nil => exact .inr ⟨[], [], rfl, rfl, .nil⟩
  | keep e h ih =>
      simp only [List.mapM_cons]
      cases Request.ofEntry e with
      | error fault => exact .inl ⟨fault, rfl, rfl⟩
      | ok request =>
          obtain ⟨fault, hentries, hentries'⟩ |
            ⟨requests, requests', hentries, hentries', htrims⟩ := ih
          · rw [hentries, hentries']
            exact .inl ⟨fault, rfl, rfl⟩
          · rw [hentries, hentries']
            exact .inr ⟨request :: requests, request :: requests', rfl, rfl, .keep request htrims⟩
  | drop hlacks h ih =>
      obtain ⟨request, hentry, hlacks⟩ := hlacks
      rw [List.mapM_cons, hentry.ofEntry_eq]
      obtain ⟨fault, hentries, hentries'⟩ | ⟨requests, requests', hentries, hentries', htrims⟩ := ih
      · rw [hentries]
        exact .inl ⟨fault, rfl, hentries'⟩
      · rw [hentries]
        exact .inr ⟨request :: requests, requests', rfl, hentries', .drop hlacks htrims⟩

/-- An annotation comes to the same without the entries that the registry lacks. -/
theorem resolve_trimmed {attributes attributes' : List (Attribute Payload)}
    {entries entries' : List (Expr Payload)} (h : AsksTuple attributes entries)
    (h' : AsksTuple attributes' entries') (htrims : Trims r.LacksEntry entries entries') :
    r.resolve attributes' = r.resolve attributes := by
  rw [resolve_of_asks h.asks, resolve_of_asks h'.asks]
  obtain ⟨fault, hentries, hentries'⟩ | ⟨requests, requests', hentries, hentries', htrims⟩ :=
    entries_trimmed htrims
  · rw [hentries, hentries']
  · rw [hentries, hentries']
    exact choose_trimmed htrims

/-- An annotation that asks only for what the registry lacks asks for nothing. -/
theorem resolve_of_all_lacking {attributes : List (Attribute Payload)}
    {entries : List (Expr Payload)}
    (h : AsksTuple attributes entries) (hlacks : ∀ e ∈ entries, r.LacksEntry e) :
    r.resolve attributes = .ok [] := by
  rw [resolve_of_asks h.asks]
  obtain ⟨fault, -, hnone⟩ | ⟨requests, requests', hentries, hnone, htrims⟩ :=
    entries_trimmed (Trims.of_forall hlacks)
  · cases hnone
  · cases hnone
    rw [hentries]
    exact (choose_trimmed htrims).symm

/-- Entries that are read come to the generators for them, or to the failure to find one. -/
theorem resolve_of_entries {attributes : List (Attribute Payload)} {entries : List (Expr Payload)}
    {requests : List Request} (h : AsksTuple attributes entries)
    (hentries : List.Forall₂ Request.Entry entries requests) :
    r.resolve attributes = .ok (requests.filterMap r.found?) ∨
      ∃ request ∈ requests, request.name ∉ r.names ∧ request.isOptional = false ∧
        r.resolve attributes =
          .error (.failure ⟨.unknownGenerator request.name r.names, request.span⟩) := by
  have hread : entries.mapM Request.ofEntry = .ok requests :=
    Outcome.mapM_eq_ok_iff.2 (hentries.imp fun _ _ hentry => hentry.ofEntry_eq)
  have hresolve : r.resolve attributes = r.choose requests := by
    rw [resolve_of_asks h.asks, hread]
    rfl
  rw [choose_eq] at hresolve
  cases haccept : forM requests r.accept with
  | ok _ =>
      rw [haccept] at hresolve
      exact .inl hresolve
  | error fault =>
      obtain ⟨before, request, after, rfl, -, hrequest⟩ := Outcome.forM_eq_error_iff.1 haccept
      obtain ⟨hname, hrequired, rfl⟩ := accept_eq_error_iff.1 hrequest
      rw [haccept] at hresolve
      exact .inr ⟨request, List.mem_append_right _ List.mem_cons_self, hname, hrequired, hresolve⟩

end Registry

/-! ## items -/

/-- Whether a subject is a group that is not recursive. -/
def Subject.isNonrecursive {π : Type} : Subject π → Bool
  | types .nonrecursive _ _ => true
  | types .recursive _ _ | extension _ => false

section

variable {r : Registry} {s : Subject Payload}

/-- Nothing is added to a structure where nothing is asked for. -/
theorem Subject.structureAnswer_of_resolve (hs : s.isNonrecursive = false)
    (h : r.resolve s.attributes = .ok []) (path : ModulePath) : s.structureAnswer r path =
    .ok [] := by
  cases s with
  | types recursion decls span =>
      have hresolve : r.resolve (TypeDecl.groupAttributes decls) = .ok [] := h
      cases recursion with
      | nonrecursive => cases hs
      | recursive =>
          rw [structureAnswer, Registry.structureTypes, hresolve]
          rfl
  | extension ext =>
      have hresolve : r.resolve ext.attributes = .ok [] := h
      rw [structureAnswer, Registry.structureExtension, hresolve]
      rfl

/-- Nothing is added to a signature where nothing is asked for. -/
theorem Subject.signatureAnswer_of_resolve (hs : s.isNonrecursive = false)
    (h : r.resolve s.attributes = .ok []) (path : ModulePath) : s.signatureAnswer r path =
    .ok [] := by
  cases s with
  | types recursion decls span =>
      have hresolve : r.resolve (TypeDecl.groupAttributes decls) = .ok [] := h
      cases recursion with
      | nonrecursive => cases hs
      | recursive =>
          rw [signatureAnswer, Registry.signatureTypes, hresolve]
          rfl
  | extension ext =>
      have hresolve : r.resolve ext.attributes = .ok [] := h
      rw [signatureAnswer, Registry.signatureExtension, hresolve]
      rfl

/-- Nothing is done to annotated declarations themselves. -/
theorem StructureItem.expand_of_subject? {item : StructureItem Payload} (h : item.subject? = some s)
    (path : ModulePath) : item.expand r path = .ok item := by
  obtain ⟨shape, span⟩ := item
  cases shape with
  | types | extend => rfl
  | _ => cases h

theorem SignatureItem.expand_of_subject? {item : SignatureItem Payload} (h : item.subject? = some s)
    (path : ModulePath) : item.expand r path = .ok item := by
  obtain ⟨shape, span⟩ := item
  cases shape with
  | types | extend => rfl
  | _ => cases h

/-- If no generator is chosen for a subject, its item stays as it is, with nothing after it. -/
theorem StructureItem.expandAll_of_resolve {item : StructureItem Payload}
    (h : item.subject? = some s) (hs : s.isNonrecursive = false)
    (hresolve : r.resolve s.attributes = .ok []) (path : ModulePath)
    (rest : List (StructureItem Payload)) :
    expandAll r path (item :: rest) = (item :: ·) <$> expandAll r path rest := by
  have hgenerated : item.generated r path = .ok [] := by
    rw [generated_eq, h]
    exact Subject.structureAnswer_of_resolve hs hresolve path
  rw [expandAll, expand_of_subject? h path]
  show (do return item :: (← item.generated r path) ++ (← expandAll r path rest)) = _
  rw [hgenerated]
  cases expandAll r path rest <;> rfl

/-- Where nothing is asked for the item stays alone. -/
theorem SignatureItem.expandAll_of_resolve {item : SignatureItem Payload}
    (h : item.subject? = some s) (hs : s.isNonrecursive = false)
    (hresolve : r.resolve s.attributes = .ok []) (path : ModulePath)
    (rest : List (SignatureItem Payload)) :
    expandAll r path (item :: rest) = (item :: ·) <$> expandAll r path rest := by
  have hgenerated : item.generated r path = .ok [] := by
    rw [generated_eq, h]
    exact Subject.signatureAnswer_of_resolve hs hresolve path
  rw [expandAll, expand_of_subject? h path]
  show (do return item :: (← item.generated r path) ++ (← expandAll r path rest)) = _
  rw [hgenerated]
  cases expandAll r path rest <;> rfl

/-- Only groups of types can be nonrecursive. -/
theorem Subject.eq_types_of_isNonrecursive (hs : s.isNonrecursive = true) :
    ∃ decls span, s = .types .nonrecursive decls span := by
  cases s with
  | types recursion decls span =>
      cases recursion with
      | nonrecursive => exact ⟨decls, span, rfl⟩
      | recursive => cases hs
  | extension => cases hs

/-- A group that is not recursive is refused at its place, whatever its annotation asks for. -/
theorem StructureItem.expandAll_of_nonrecursive {item : StructureItem Payload}
    (h : item.subject? = some s) (hs : s.isNonrecursive = true) (path : ModulePath)
    (rest : List (StructureItem Payload)) :
    expandAll r path (item :: rest) = .error (.failure ⟨.nonrecursive, item.span⟩) := by
  obtain ⟨decls, span, rfl⟩ := Subject.eq_types_of_isNonrecursive hs
  have hgenerated : item.generated r path = .error (.failure ⟨.nonrecursive, item.span⟩) := by
    rw [generated_eq, h, span_of_subject? h]
    rfl
  rw [expandAll, expand_of_subject? h path]
  show (do return item :: (← item.generated r path) ++ (← expandAll r path rest)) = _
  rw [hgenerated]
  rfl

/-- A nonrecursive group with an annotation is refused before the annotation is read. -/
theorem SignatureItem.expandAll_of_nonrecursive {item : SignatureItem Payload}
    (h : item.subject? = some s) (hs : s.isNonrecursive = true) (path : ModulePath)
    (rest : List (SignatureItem Payload)) :
    expandAll r path (item :: rest) = .error (.failure ⟨.nonrecursive, item.span⟩) := by
  obtain ⟨decls, span, rfl⟩ := Subject.eq_types_of_isNonrecursive hs
  have hgenerated : item.generated r path = .error (.failure ⟨.nonrecursive, item.span⟩) := by
    rw [generated_eq, h, span_of_subject? h]
    rfl
  rw [expandAll, expand_of_subject? h path]
  show (do return item :: (← item.generated r path) ++ (← expandAll r path rest)) = _
  rw [hgenerated]
  rfl

end

/-! ## the result -/

/-- **Optional entries for generators that are not there leave no trace.** Any of them can be taken
out of a tuple, and the same generators are chosen for the same requests, or the annotation is
refused for the same reason. If all entries can be read, that is the generators for them in order,
or the failure to find one that is required. If all entries are passed over, no generator is chosen,
and the item of the annotation is followed by nothing, unless it is a group that is not recursive:
that is always refused, at its place. -/
theorem Registry.unavailable_entries_leave_no_trace (r : Registry)
    {attributes : List (Attribute Payload)} {entries : List (Expr Payload)}
    (h : AsksTuple attributes entries) :
    (∀ (attributes' : List (Attribute Payload)) (entries' : List (Expr Payload)),
      AsksTuple attributes' entries' → Trims r.LacksEntry entries entries' →
      r.resolve attributes' = r.resolve attributes) ∧
    (∀ requests : List Request, List.Forall₂ Request.Entry entries requests →
      r.resolve attributes = .ok (requests.filterMap r.found?) ∨
      ∃ request ∈ requests, request.name ∉ r.names ∧ request.isOptional = false ∧
        r.resolve attributes =
          .error (.failure ⟨.unknownGenerator request.name r.names, request.span⟩)) ∧
    ((∀ e ∈ entries, r.LacksEntry e) →
      r.resolve attributes = .ok [] ∧
      ∀ (path : ModulePath) (s : Subject Payload),
        s.attributes = attributes → s.isNonrecursive = false →
        (∀ (item : StructureItem Payload) (rest : List (StructureItem Payload)),
          item.subject? = some s →
          StructureItem.expandAll r path (item :: rest) =
            (item :: ·) <$> StructureItem.expandAll r path rest) ∧
        ∀ (item : SignatureItem Payload) (rest : List (SignatureItem Payload)),
          item.subject? = some s →
          SignatureItem.expandAll r path (item :: rest) =
            (item :: ·) <$> SignatureItem.expandAll r path rest) ∧
    ∀ (path : ModulePath) (s : Subject Payload),
      s.attributes = attributes → s.isNonrecursive = true →
      (∀ (item : StructureItem Payload) (rest : List (StructureItem Payload)),
        item.subject? = some s →
        StructureItem.expandAll r path (item :: rest) =
          .error (.failure ⟨.nonrecursive, item.span⟩)) ∧
      ∀ (item : SignatureItem Payload) (rest : List (SignatureItem Payload)),
        item.subject? = some s →
        SignatureItem.expandAll r path (item :: rest) =
          .error (.failure ⟨.nonrecursive, item.span⟩) := by
  refine ⟨fun attributes' entries' h' htrims => resolve_trimmed h h' htrims,
    fun requests hentries => resolve_of_entries h hentries, fun hlacks => ?_,
    fun path s hattributes hs => ?_⟩
  · have hresolve : r.resolve attributes = .ok [] := resolve_of_all_lacking h hlacks
    refine ⟨hresolve, fun path s hattributes hs => ?_⟩
    rw [← hattributes] at hresolve
    exact ⟨fun item rest hitem => StructureItem.expandAll_of_resolve hitem hs hresolve path rest,
      fun item rest hitem => SignatureItem.expandAll_of_resolve hitem hs hresolve path rest⟩
  · exact ⟨fun item rest hitem => StructureItem.expandAll_of_nonrecursive hitem hs path rest,
      fun item rest hitem => SignatureItem.expandAll_of_nonrecursive hitem hs path rest⟩

/-- An optional entry for the generator called `name`. -/
def optionalEntry (name : String) (span : Span) : Expr Payload :=
  .apply (.var name span) [.record [(.simple "optional", .bool true span)] span] span

/-- An optional entry for a name that is not registered is one that the registry lacks. -/
theorem lacksEntry_optionalEntry {r : Registry} {name : String}
    (h : (QualName.ofDotted name).dotted ∉ r.names) (span : Span) :
    r.LacksEntry (optionalEntry name span) := by
  have hoptions : Request.Options [(⟨.simple "optional", span⟩, .bool true span)] true [] :=
    @Request.Options.reserved [] _ _ [] nofun rfl (.yes span span [])
  rw [← Request.written_eq_dotted ⟨.ofDotted name, span⟩] at h
  exact ⟨_, .record span [] rfl rfl hoptions, rfl, h⟩

/-- The attribute that asks for the entries of a tuple. -/
def tupleAttribute (entries : List (Expr Payload)) (span : Span) : Attribute Payload :=
  .withExpr "deriving" (.tuple entries span)

theorem asksTuple_tupleAttribute (entries : List (Expr Payload)) (span : Span) :
    AsksTuple [tupleAttribute entries span] entries :=
  ⟨[], tupleAttribute entries span, [], span, [], rfl, nofun, rfl,
    ⟨span, Payload.shape_ofShape _⟩⟩

/-- A group of one type, with optional entries only. -/
def optionalGroup (recursion : Recursion) : StructureItem Payload :=
  .types recursion
    [{ TypeDecl.abstract "t" ⟨5, 6⟩ with
      attributes :=
        [tupleAttribute [optionalEntry "eq" ⟨10, 12⟩, optionalEntry "ord" ⟨14, 17⟩] ⟨10, 17⟩] }]
    ⟨0, 20⟩

/-- Two entries that are not there leave the one that is, and alone they leave nothing, except that
a group that is not recursive is refused. -/
theorem Registry.unavailable_entries_leave_no_trace_show :
    (Registry.ofList [.echo "show"]).resolve [tupleAttribute [.var "show" ⟨6, 10⟩] ⟨6, 10⟩] =
      (Registry.ofList [.echo "show"]).resolve
        [tupleAttribute
          [optionalEntry "eq" ⟨2, 4⟩, .var "show" ⟨6, 10⟩, optionalEntry "ord" ⟨12, 15⟩] ⟨2, 15⟩] ∧
    StructureItem.expandAll (.ofList [.echo "show"]) .root [optionalGroup .recursive] =
      .ok [optionalGroup .recursive] ∧
    StructureItem.expandAll (.ofList [.echo "show"]) .root [optionalGroup .nonrecursive] =
      .error (.failure ⟨.nonrecursive, ⟨0, 20⟩⟩) := by
  have heq : ∀ span, (Registry.ofList [.echo "show"]).LacksEntry (optionalEntry "eq" span) :=
    lacksEntry_optionalEntry (by rw [names_ofList_singleton]; decide)
  have hord : ∀ span, (Registry.ofList [.echo "show"]).LacksEntry (optionalEntry "ord" span) :=
    lacksEntry_optionalEntry (by rw [names_ofList_singleton]; decide)
  have hlacks : ∀ e ∈ [optionalEntry "eq" ⟨10, 12⟩, optionalEntry "ord" ⟨14, 17⟩],
      (Registry.ofList [.echo "show"]).LacksEntry e := by
    simp [heq, hord]
  obtain ⟨-, -, hnothing, hrefused⟩ :=
    unavailable_entries_leave_no_trace (.ofList [.echo "show"])
      (asksTuple_tupleAttribute _ ⟨10, 17⟩)
  refine ⟨?_, ?_, (hrefused .root _ rfl rfl).1 _ _ rfl⟩
  · exact (unavailable_entries_leave_no_trace _ (asksTuple_tupleAttribute _ _)).1 _ _
      (asksTuple_tupleAttribute _ _) (.drop (heq _) (.keep _ (.drop (hord _) .nil)))
  · rw [((hnothing hlacks).2 .root _ rfl rfl).1 _ _ rfl]
    rfl

/-- A group that is not recursive is refused, though no generator is chosen for it. -/
theorem optionalGroup_nonrecursive_refused :
    (∃ s entries, (optionalGroup .nonrecursive).subject? = some s ∧
      AsksTuple s.attributes entries ∧ (∀ e ∈ entries, Registry.empty.LacksEntry e) ∧
      Registry.empty.resolve s.attributes = .ok []) ∧
    StructureItem.expandAll .empty .root [optionalGroup .nonrecursive] =
      .error (.failure ⟨.nonrecursive, ⟨0, 20⟩⟩) := by
  have hlacks : ∀ e ∈ [optionalEntry "eq" ⟨10, 12⟩, optionalEntry "ord" ⟨14, 17⟩],
      Registry.empty.LacksEntry e := by
    simp [lacksEntry_optionalEntry, Registry.empty, Registry.names]
  have hasks : AsksTuple [tupleAttribute _ _] _ := asksTuple_tupleAttribute
    [optionalEntry "eq" ⟨10, 12⟩, optionalEntry "ord" ⟨14, 17⟩] ⟨10, 17⟩
  exact ⟨⟨_, _, rfl, hasks, hlacks, Registry.resolve_of_all_lacking hasks hlacks⟩, rfl⟩

end DeriveKit
