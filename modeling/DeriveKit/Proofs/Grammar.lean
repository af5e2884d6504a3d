import DeriveKit.Annotation.Request
import DeriveKit.Proofs.Outcome

/-!
# DeriveKit.Proofs.Grammar

The grammar of annotations, and that `Request.ofPayload` reads exactly it. What is accepted is given
by rules, and so is what is refused:

* `written`, `IsReserved` — the text of a name, its segments joined by dots, and the one key that is
  no option;
* `Truth`, `Options`, `Entry`, `Annotation` — a literal, the record of an entry, an entry, and the
  expression of an annotation, each with what it says;
* `BadEntry`, `BadAnnotation` — an expression with the fault found in it.

The rules are about the nodes themselves: each names the node, its parts and its place, and leaves
its attributes free.

The reader follows the rules on both sides, for entries (`ofEntry_eq_ok_iff`,
`ofEntry_eq_error_iff`) and for annotations (`ofPayload_eq_ok_iff`, `ofPayload_eq_error_iff`),
because every expression is an entry or a bad one (`entry_or_bad`).
-/

namespace DeriveKit

namespace Request

/-- A field of the record after the name of a generator. -/
abbrev Field := Located QualName × Expr Payload

/-- The text of a name: its segments, the last one included, joined by dots. -/
def written (name : Located QualName) : String :=
  ".".intercalate (name.value.path ++ [name.value.last])

/-- Whether a field says that its entry is optional. -/
def IsReserved (field : Field) : Prop := written field.1 = "optional"

/-! ## the rules -/

/-- A literal truth value. -/
inductive Truth : Expr Payload → Bool → Prop
  | yes (place span : Span) (attributes : List (Attribute Payload)) :
    Truth ⟨.construct ⟨.simple "true", place⟩ none, span, attributes⟩ true
  | no (place span : Span) (attributes : List (Attribute Payload)) :
    Truth ⟨.construct ⟨.simple "false", place⟩ none, span, attributes⟩ false

/-- The fields of a record, whether they make the entry optional, and the fields left as options.
Only the first reserved field counts; later ones stay where they are. -/
inductive Options : List Field → Bool → List Field → Prop
  | unreserved {fields : List Field} (h : ∀ field ∈ fields, ¬ IsReserved field) :
    Options fields false fields
  | reserved {before : List Field} {field : Field} {isOptional : Bool} (after : List Field)
    (hbefore : ∀ field ∈ before, ¬ IsReserved field) (hfield : IsReserved field)
    (hvalue : Truth field.2 isOptional) :
    Options (before ++ field :: after) isOptional (before ++ after)

/-- An entry, and what it asks for: the name of a generator, alone or applied to a record. -/
inductive Entry : Expr Payload → Request → Prop
  | name (name : Located QualName) (span : Span) (attributes : List (Attribute Payload)) :
    Entry ⟨.ident name, span, attributes⟩ ⟨written name, span, [], false⟩
  | record {callee arg : Expr Payload} {name : Located QualName} {fields others : List Field}
    {isOptional : Bool} (span : Span) (attributes : List (Attribute Payload))
    (hcallee : callee.shape = .ident name) (harg : arg.shape = .record fields none)
    (h : Options fields isOptional others) :
    Entry ⟨.apply callee [(.positional, arg)], span, attributes⟩
      ⟨written name, span,
        others.map fun (key, value) => ⟨written key, value, key.span.merge value.span⟩,
        isOptional⟩

/-- The payload is one item that evaluates `e`, without attributes on the item. -/
def Evaluates (payload : Payload) (e : Expr Payload) : Prop :=
  ∃ place, payload.shape = .structure [⟨.eval e [], place⟩]

/-- The expression of an annotation, and what it asks for. -/
inductive Annotation : Expr Payload → List Request → Prop
  | entry {e : Expr Payload} {request : Request} (h : Entry e request) : Annotation e [request]
  | entries {entries : List (Expr Payload)} {requests : List Request} (span : Span)
    (attributes : List (Attribute Payload)) (h : List.Forall₂ Entry entries requests) :
    Annotation ⟨.tuple entries, span, attributes⟩ requests

/-- A name, or something applied. -/
inductive IsSingle : Expr Payload → Prop
  | ident (name : Located QualName) (span : Span) (attributes : List (Attribute Payload)) :
    IsSingle ⟨.ident name, span, attributes⟩
  | apply (callee : Expr Payload) (args : List (ArgLabel × Expr Payload)) (span : Span)
    (attributes : List (Attribute Payload)) :
    IsSingle ⟨.apply callee args, span, attributes⟩

/-- An expression that is no entry, and the fault found in it. -/
inductive BadEntry : Expr Payload → Fault → Prop
  | other {e : Expr Payload} (h : ¬ IsSingle e) :
    BadEntry e (.failure ⟨.malformedOptions, e.span⟩)
  | callee {callee : Expr Payload} (args : List (ArgLabel × Expr Payload)) (span : Span)
    (attributes : List (Attribute Payload)) (h : ∀ name, callee.shape ≠ .ident name) :
    BadEntry ⟨.apply callee args, span, attributes⟩ (.failure ⟨.malformedOptions, span⟩)
  | arguments (callee : Expr Payload) {args : List (ArgLabel × Expr Payload)} (span : Span)
    (attributes : List (Attribute Payload)) (h : ∀ arg, args ≠ [(.positional, arg)]) :
    BadEntry ⟨.apply callee args, span, attributes⟩ (.failure ⟨.malformedOptions, span⟩)
  | argument {callee arg : Expr Payload} {name : Located QualName} (span : Span)
    (attributes : List (Attribute Payload)) (hcallee : callee.shape = .ident name)
    (harg : ∀ fields, arg.shape ≠ .record fields none) :
    BadEntry ⟨.apply callee [(.positional, arg)], span, attributes⟩
      (.failure ⟨.malformedOptions, arg.span⟩)
  | reserved {callee arg : Expr Payload} {name : Located QualName} {before : List Field}
    {field : Field} {after : List Field} (span : Span) (attributes : List (Attribute Payload))
    (hcallee : callee.shape = .ident name)
    (harg : arg.shape = .record (before ++ field :: after) none)
    (hbefore : ∀ field ∈ before, ¬ IsReserved field) (hfield : IsReserved field)
    (hvalue : ∀ value, ¬ Truth field.2 value) :
    BadEntry ⟨.apply callee [(.positional, arg)], span, attributes⟩
      (.failure ⟨.invalidOption (written name ++ ": boolean expected"), field.2.span⟩)

/-- An expression that no annotation has, and the fault found in it. In a tuple it is that of the
leftmost member that is no entry. -/
inductive BadAnnotation : Expr Payload → Fault → Prop
  | other {e : Expr Payload} (hsingle : ¬ IsSingle e)
    (htuple : ∀ entries, e.shape ≠ .tuple entries) :
    BadAnnotation e (.failure ⟨.malformedRequest, e.span⟩)
  | entry {e : Expr Payload} {fault : Fault} (hsingle : IsSingle e) (h : BadEntry e fault) :
    BadAnnotation e fault
  | entries {before after : List (Expr Payload)} {e : Expr Payload} {fault : Fault} (span : Span)
    (attributes : List (Attribute Payload)) (hbefore : ∀ b ∈ before, ∃ request, Entry b request)
    (h : BadEntry e fault) :
    BadAnnotation ⟨.tuple (before ++ e :: after), span, attributes⟩ fault

/-! ## names -/

/-- A name is joined as its text says, whether it stands for a generator or for a key. -/
theorem written_eq_dotted (name : Located QualName) : written name = name.value.dotted :=
  (joinWith_eq_intercalate "." _).symm

/-- A field is reserved if its key is the one that the reader takes out (`splitOptional`). -/
theorem isReserved_iff {field : Field} : IsReserved field ↔ field.1.value.dotted = optionalKey := by
  rw [IsReserved, written_eq_dotted, optionalKey]

/-- The options of an entry are its fields, read one by one (`settingOf`). -/
theorem map_written (fields : List Field) :
    (fields.map fun (key, value) => (⟨written key, value, key.span.merge value.span⟩ : Setting)) =
      fields.map settingOf :=
  List.map_congr_left fun (key, _) _ => by
    dsimp only
    rw [settingOf, written_eq_dotted]

/-! ## literals -/

/-- A list literal or what is taken for none is no truth value. -/
theorem asList_ne_bool (e : Expr Payload) (value : Bool) : e.asList ≠ .bool value := by
  unfold Expr.asList
  split
  · exact nofun
  · exact nofun

/-- A truth value is one as an argument. -/
theorem Truth.asArgument_eq {e : Expr Payload} {value : Bool} (h : Truth e value) :
    e.asArgument = .bool value := by
  cases h with
  | yes => rfl
  | no => rfl

/-- Nothing else is a truth value as an argument. -/
theorem truth_of_asArgument_eq {e : Expr Payload} {value : Bool} (h : e.asArgument = .bool value) :
    Truth e value := by
  obtain ⟨shape, span, attributes⟩ := e
  unfold Expr.asArgument at h
  split at h
  case h_4 name hshape =>
      obtain ⟨segments, place⟩ := name
      dsimp only at hshape h
      subst hshape
      by_cases hyes : segments = .simple "true"
      · rw [if_pos hyes] at h
        cases h
        subst hyes
        exact .yes place span attributes
      · rw [if_neg hyes] at h
        by_cases hno : segments = .simple "false"
        · rw [if_pos hno] at h
          cases h
          subst hno
          exact .no place span attributes
        · rw [if_neg hno] at h
          exact absurd h (asList_ne_bool _ _)
  case h_5 => exact absurd h (asList_ne_bool _ _)
  all_goals cases h

/-- A truth value is read as itself. -/
theorem Truth.readValue_eq {e : Expr Payload} {value : Bool} (h : Truth e value)
    (generator : String) : e.readValue generator Decoder.bool = .ok value := by
  rw [Expr.readValue, Decoder.bool, h.asArgument_eq]

/-- What is no truth value is refused where it stands. -/
theorem readValue_of_not_truth {e : Expr Payload} (h : ∀ value, ¬ Truth e value)
    (generator : String) :
    e.readValue generator Decoder.bool =
      .error (.failure ⟨.invalidOption (generator ++ ": boolean expected"), e.span⟩) := by
  have hbool : Decoder.bool e = .error "boolean" := by
    unfold Decoder.bool
    split
    case h_1 value hvalue => exact absurd (truth_of_asArgument_eq hvalue) (h value)
    case h_2 => rfl
  rw [Expr.readValue, hbool]
  show fail (.invalidOption (generator ++ ": " ++ "boolean" ++ " expected")) e.span = _
  rw [String.append_assoc, String.append_assoc]
  rfl

/-! ## options -/

/-- A reserved field ends the search, and its value is read. -/
theorem splitOptional_cons_of_reserved {field : Field} (h : IsReserved field) (name : String)
    (rest : List Setting) :
    splitOptional name (settingOf field :: rest) = (do
      return (← field.2.readValue name Decoder.bool, rest)) :=
  if_pos (isReserved_iff.1 h)

/-- Any other field stays where it is, in front of what the rest comes to. -/
theorem splitOptional_cons_of_not_reserved {field : Field} (h : ¬ IsReserved field) (name : String)
    (rest : List Setting) :
    splitOptional name (settingOf field :: rest) = (do
      let (isOptional, others) ← splitOptional name rest
      return (isOptional, settingOf field :: others)) :=
  if_neg (mt isReserved_iff.2 h)

/-- Fields without a reserved one are all options. -/
theorem splitOptional_of_forall (name : String) : (fields : List Field) →
    (∀ field ∈ fields, ¬ IsReserved field) →
    splitOptional name (fields.map settingOf) = .ok (false, fields.map settingOf)
  | [], _ => rfl
  | field :: fields, h => by
      rw [List.forall_mem_cons] at h
      have ih := splitOptional_of_forall name fields h.2
      rw [List.map_cons, splitOptional_cons_of_not_reserved h.1, ih]
      rfl

/-- The first reserved field is taken out, and its value is read. -/
theorem splitOptional_append (name : String) {field : Field} (after : List Field)
    (hfield : IsReserved field) : (before : List Field) → (∀ b ∈ before, ¬ IsReserved b) →
    splitOptional name ((before ++ field :: after).map settingOf) = (do
      let isOptional ← field.2.readValue name Decoder.bool
      return (isOptional, (before ++ after).map settingOf))
  | [], _ => by
      rw [List.nil_append, List.map_cons, splitOptional_cons_of_reserved hfield]
      rfl
  | b :: before, h => by
      rw [List.forall_mem_cons] at h
      have ih := splitOptional_append name after hfield before h.2
      rw [List.cons_append, List.map_cons, splitOptional_cons_of_not_reserved h.1, ih, bind_assoc]
      rfl

/-- Fields have no reserved one, or a first one. -/
theorem unreserved_or_reserved (fields : List Field) :
    (∀ field ∈ fields, ¬ IsReserved field) ∨
      ∃ before field after, fields = before ++ field :: after ∧
        (∀ b ∈ before, ¬ IsReserved b) ∧ IsReserved field := by
  induction fields with
  | nil => exact .inl nofun
  | cons field fields ih =>
      by_cases hfield : IsReserved field
      · exact .inr ⟨[], field, fields, rfl, nofun, hfield⟩
      · obtain h | ⟨before, b, after, rfl, hbefore, hb⟩ := ih
        · exact .inl (List.forall_mem_cons.2 ⟨hfield, h⟩)
        · exact .inr ⟨field :: before, b, after, rfl, List.forall_mem_cons.2 ⟨hfield, hbefore⟩, hb⟩

/-- The options of a record can be told, unless its first reserved field is no truth value. -/
theorem options_or_reserved (fields : List Field) :
    (∃ isOptional others, Options fields isOptional others) ∨
      ∃ before field after, fields = before ++ field :: after ∧
        (∀ b ∈ before, ¬ IsReserved b) ∧ IsReserved field ∧ ∀ value, ¬ Truth field.2 value := by
  obtain h | ⟨before, field, after, rfl, hbefore, hfield⟩ := unreserved_or_reserved fields
  · exact .inl ⟨false, fields, .unreserved h⟩
  · by_cases hvalue : ∃ value, Truth field.2 value
    · obtain ⟨value, hvalue⟩ := hvalue
      exact .inl ⟨value, before ++ after, .reserved after hbefore hfield hvalue⟩
    · exact .inr ⟨before, field, after, rfl, hbefore, hfield, not_exists.1 hvalue⟩

/-- Fields are split as the rule says. -/
theorem Options.splitOptional_eq {fields others : List Field} {isOptional : Bool}
    (h : Options fields isOptional others) (name : String) :
    splitOptional name (fields.map settingOf) = .ok (isOptional, others.map settingOf) := by
  cases h with
  | unreserved h => exact splitOptional_of_forall name fields h
  | reserved after hbefore hfield hvalue =>
      rw [splitOptional_append name after hfield _ hbefore, hvalue.readValue_eq]
      rfl

/-! ## entries -/

/-- A name applied to a record is read by splitting the fields of the record. -/
theorem ofEntry_record {callee arg : Expr Payload} {name : Located QualName} {fields : List Field}
    (span : Span) (attributes : List (Attribute Payload)) (hcallee : callee.shape = .ident name)
    (harg : arg.shape = .record fields none) :
    ofEntry ⟨.apply callee [(.positional, arg)], span, attributes⟩ = (do
      let (isOptional, settings) ← splitOptional name.value.dotted (fields.map settingOf)
      return ⟨name.value.dotted, span, settings, isOptional⟩) := by
  obtain ⟨_, calleeSpan, calleeAttributes⟩ := callee
  cases hcallee
  rw [ofEntry]
  dsimp only
  rw [harg]

/-- An entry is read as the rule says. -/
theorem Entry.ofEntry_eq {e : Expr Payload} {request : Request} (h : Entry e request) :
    ofEntry e = .ok request := by
  cases h with
  | name name span attributes => rw [written_eq_dotted]; rfl
  | record span attributes hcallee harg h =>
      rw [ofEntry_record span attributes hcallee harg, h.splitOptional_eq, written_eq_dotted,
        map_written]
      rfl

/-- What is no entry is refused with the fault found in it. -/
theorem BadEntry.ofEntry_eq {e : Expr Payload} {fault : Fault} (h : BadEntry e fault) :
    ofEntry e = .error fault := by
  cases h with
  | other h =>
      obtain ⟨shape, span, attributes⟩ := e
      cases shape with
      | ident name => exact absurd (.ident name span attributes) h
      | apply callee args => exact absurd (.apply callee args span attributes) h
      | _ => rfl
  | callee args span attributes h =>
      rw [ofEntry]
      split
      case h_1 heq => cases heq
      case h_2 heq => cases heq; exact absurd rfl (h _)
      case h_3 => rfl
  | arguments callee span attributes h =>
      rw [ofEntry]
      split
      case h_1 heq => cases heq
      case h_2 heq => cases heq; exact absurd rfl (h _)
      case h_3 => rfl
  | @argument callee arg name span attributes hcallee harg =>
      obtain ⟨_, calleeSpan, calleeAttributes⟩ := callee
      cases hcallee
      rw [ofEntry]
      dsimp only
      split
      case h_1 fields heq => exact absurd heq (harg fields)
      case h_2 => rfl
  | reserved span attributes hcallee harg hbefore hfield hvalue =>
      rw [ofEntry_record span attributes hcallee harg, splitOptional_append _ _ hfield _ hbefore,
        readValue_of_not_truth hvalue, written_eq_dotted]
      rfl

/-- Every expression is an entry or is none. -/
theorem entry_or_bad (e : Expr Payload) :
    (∃ request, Entry e request) ∨ ∃ fault, BadEntry e fault := by
  obtain ⟨shape, span, attributes⟩ := e
  cases shape with
  | ident name => exact .inl ⟨_, .name name span attributes⟩
  | apply callee args =>
      by_cases hcallee : ∃ name, callee.shape = .ident name
      · by_cases hargs : ∃ arg, args = [(.positional, arg)]
        · obtain ⟨name, hcallee⟩ := hcallee
          obtain ⟨arg, rfl⟩ := hargs
          by_cases harg : ∃ fields, arg.shape = .record fields none
          · obtain ⟨fields, harg⟩ := harg
            obtain ⟨isOptional, others, h⟩ | ⟨before, field, after, rfl, hbefore, hfield, hvalue⟩ :=
              options_or_reserved fields
            · exact .inl ⟨_, .record span attributes hcallee harg h⟩
            · exact .inr ⟨_, .reserved span attributes hcallee harg hbefore hfield hvalue⟩
          · exact .inr ⟨_, .argument span attributes hcallee (not_exists.1 harg)⟩
        · exact .inr ⟨_, .arguments callee span attributes (not_exists.1 hargs)⟩
      · exact .inr ⟨_, .callee args span attributes (not_exists.1 hcallee)⟩
  | _ => exact .inr ⟨_, .other nofun⟩

/-- **Entries are read as their grammar says.** -/
theorem ofEntry_eq_ok_iff {e : Expr Payload} {request : Request} :
    ofEntry e = .ok request ↔ Entry e request := by
  constructor
  · intro h
    obtain ⟨request', hentry⟩ | ⟨fault, hbad⟩ := entry_or_bad e
    · rw [hentry.ofEntry_eq] at h
      cases h
      exact hentry
    · rw [hbad.ofEntry_eq] at h
      cases h
  · exact Entry.ofEntry_eq

/-- What is no entry is refused as the rules for the fault say. -/
theorem ofEntry_eq_error_iff {e : Expr Payload} {fault : Fault} :
    ofEntry e = .error fault ↔ BadEntry e fault := by
  constructor
  · intro h
    obtain ⟨request, hentry⟩ | ⟨fault', hbad⟩ := entry_or_bad e
    · rw [hentry.ofEntry_eq] at h
      cases h
    · rw [hbad.ofEntry_eq] at h
      cases h
      exact hbad
  · exact BadEntry.ofEntry_eq

/-! ## annotations -/

/-- A name or something applied is read as an entry. -/
theorem ofPayload_of_single {payload : Payload} {e : Expr Payload}
    (hpayload : payload.expr? = some e) (he : IsSingle e) (span : Span) :
    ofPayload payload span = (do return [← ofEntry e]) := by
  rw [ofPayload, hpayload]
  cases he with
  | ident | apply => rfl

/-- A tuple is read member by member. -/
theorem ofPayload_of_tuple {payload : Payload} {entries : List (Expr Payload)} {place : Span}
    {attributes : List (Attribute Payload)}
    (hpayload : payload.expr? = some ⟨.tuple entries, place, attributes⟩) (span : Span) :
    ofPayload payload span = entries.mapM ofEntry := by
  rw [ofPayload, hpayload]

/-- Any other expression is refused where it stands. -/
theorem ofPayload_of_other {payload : Payload} {e : Expr Payload}
    (hpayload : payload.expr? = some e) (hsingle : ¬ IsSingle e)
    (htuple : ∀ entries, e.shape ≠ .tuple entries) (span : Span) :
    ofPayload payload span = .error (.failure ⟨.malformedRequest, e.span⟩) := by
  obtain ⟨shape, place, attributes⟩ := e
  rw [ofPayload, hpayload]
  cases shape with
  | ident name => exact absurd (.ident name place attributes) hsingle
  | apply callee args => exact absurd (.apply callee args place attributes) hsingle
  | tuple entries => exact absurd rfl (htuple entries)
  | _ => rfl

/-- An expression is one entry, a tuple, or neither. -/
theorem single_or_tuple (e : Expr Payload) :
    IsSingle e ∨ (∃ entries place attributes, e = ⟨.tuple entries, place, attributes⟩) ∨
      ¬ IsSingle e ∧ ∀ entries, e.shape ≠ .tuple entries := by
  obtain ⟨shape, place, attributes⟩ := e
  cases shape with
  | ident name => exact .inl (.ident name place attributes)
  | apply callee args => exact .inl (.apply callee args place attributes)
  | tuple entries => exact .inr (.inl ⟨entries, place, attributes, rfl⟩)
  | _ => exact .inr (.inr ⟨nofun, nofun⟩)

/-- An annotation with an expression is read as the rules for annotations say. -/
theorem ofPayload_eq_ok_iff {payload : Payload} {e : Expr Payload}
    (hpayload : payload.expr? = some e) {span : Span} {requests : List Request} :
    ofPayload payload span = .ok requests ↔ Annotation e requests := by
  obtain hsingle | ⟨entries, place, attributes, rfl⟩ | ⟨hsingle, htuple⟩ := single_or_tuple e
  · rw [ofPayload_of_single hpayload hsingle]
    constructor
    · intro h
      obtain ⟨request, hrequest, h⟩ := Outcome.bind_eq_ok_iff.1 h
      cases h
      exact .entry (ofEntry_eq_ok_iff.1 hrequest)
    · intro h
      cases h with
      | entry h => rw [h.ofEntry_eq]; rfl
      | entries => cases hsingle
  · rw [ofPayload_of_tuple hpayload, Outcome.mapM_eq_ok_iff]
    simp only [ofEntry_eq_ok_iff]
    constructor
    · exact .entries place attributes
    · intro h
      cases h with
      | entry h => cases h
      | entries _ _ h => exact h
  · rw [ofPayload_of_other hpayload hsingle htuple]
    constructor
    · exact nofun
    · intro h
      cases h with
      | entry h => cases h <;> exact absurd (by constructor) hsingle
      | entries => exact absurd rfl (htuple _)

/-- An annotation with an expression is refused as the rules for the fault say. -/
theorem ofPayload_eq_error_iff {payload : Payload} {e : Expr Payload}
    (hpayload : payload.expr? = some e) {span : Span} {fault : Fault} :
    ofPayload payload span = .error fault ↔ BadAnnotation e fault := by
  obtain hsingle | ⟨entries, place, attributes, rfl⟩ | ⟨hsingle, htuple⟩ := single_or_tuple e
  · rw [ofPayload_of_single hpayload hsingle]
    constructor
    · intro h
      obtain h | ⟨_, _, h⟩ := Outcome.bind_eq_error_iff.1 h
      · exact .entry hsingle (ofEntry_eq_error_iff.1 h)
      · cases h
    · intro h
      cases h with
      | other h => exact absurd hsingle h
      | entry _ h => rw [h.ofEntry_eq]; rfl
      | entries => cases hsingle
  · rw [ofPayload_of_tuple hpayload, Outcome.mapM_eq_error_iff]
    simp only [ofEntry_eq_ok_iff, ofEntry_eq_error_iff]
    constructor
    · rintro ⟨before, e, after, rfl, hbefore, he⟩
      exact .entries place attributes hbefore he
    · intro h
      cases h with
      | other _ htuple => exact absurd rfl (htuple entries)
      | entry h => cases h
      | entries _ _ hbefore h => exact ⟨_, _, _, rfl, hbefore, h⟩
  · rw [ofPayload_of_other hpayload hsingle htuple]
    constructor
    · intro h
      cases h
      exact .other hsingle htuple
    · intro h
      cases h with
      | other => rfl
      | entry h => exact absurd h hsingle
      | entries => exact absurd rfl (htuple _)

/-- The expression of a payload is the one that it evaluates. -/
theorem expr?_eq_some_iff {payload : Payload} {e : Expr Payload} :
    payload.expr? = some e ↔ Evaluates payload e := by
  constructor
  · intro h
    unfold Payload.expr? at h
    split at h
    case h_1 item hshape =>
        obtain ⟨shape, place⟩ := item
        unfold StructureItem.bareEval? at h
        split at h
        case h_1 heval =>
            cases h
            cases heval
            exact ⟨place, hshape⟩
        case h_2 => cases h
    case h_2 => cases h
  · rintro ⟨place, h⟩
    rw [Payload.expr?, h]
    rfl

/-- A payload evaluates one expression at most. -/
theorem Evaluates.unique {payload : Payload} {e e' : Expr Payload} (h : Evaluates payload e)
    (h' : Evaluates payload e') : e' = e := by
  have hsome := expr?_eq_some_iff.2 h'
  rw [expr?_eq_some_iff.2 h] at hsome
  exact (Option.some.inj hsome).symm

/-- A payload of another form is refused where the annotation stands. -/
theorem ofPayload_of_not_evaluates {payload : Payload} (h : ∀ e, ¬ Evaluates payload e)
    (span : Span) : ofPayload payload span = .error (.failure ⟨.malformedRequest, span⟩) := by
  cases hpayload : payload.expr? with
  | none => rw [ofPayload, hpayload]; rfl
  | some e => exact absurd (expr?_eq_some_iff.1 hpayload) (h e)

/-- **An annotation is read as its grammar says, and refused otherwise.** The payload has to be one
item that evaluates an expression and carries no attributes; then the requests, or the fault, are
those of the expression. -/
theorem ofPayload_follows_grammar (payload : Payload) (span : Span) :
    (∀ requests, ofPayload payload span = .ok requests ↔
      ∃ e, Evaluates payload e ∧ Annotation e requests) ∧
    ∀ fault, ofPayload payload span = .error fault ↔
      ((∀ e, ¬ Evaluates payload e) ∧ fault = .failure ⟨.malformedRequest, span⟩) ∨
      ∃ e, Evaluates payload e ∧ BadAnnotation e fault := by
  by_cases hpayload : ∃ e, Evaluates payload e
  · obtain ⟨e, he⟩ := hpayload
    have hsome : payload.expr? = some e := expr?_eq_some_iff.2 he
    refine ⟨fun requests => ?_, fun fault => ?_⟩
    · rw [ofPayload_eq_ok_iff hsome]
      constructor
      · exact fun h => ⟨e, he, h⟩
      · rintro ⟨e', he', h⟩
        exact he.unique he' ▸ h
    · rw [ofPayload_eq_error_iff hsome]
      constructor
      · exact fun h => .inr ⟨e, he, h⟩
      · rintro (⟨hnone, _⟩ | ⟨e', he', h⟩)
        · exact absurd he (hnone e)
        · exact he.unique he' ▸ h
  · have hnone : ∀ e, ¬ Evaluates payload e := not_exists.1 hpayload
    rw [ofPayload_of_not_evaluates hnone]
    refine ⟨fun requests => ⟨nofun, ?_⟩, fun fault => ⟨?_, ?_⟩⟩
    · rintro ⟨e, he, _⟩
      exact absurd he (hnone e)
    · intro h
      cases h
      exact .inl ⟨hnone, rfl⟩
    · rintro (⟨_, rfl⟩ | ⟨e, he, _⟩)
      · rfl
      · exact absurd he (hnone e)

end Request

end DeriveKit
