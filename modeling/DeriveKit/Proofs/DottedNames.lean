import DeriveKit.Proofs.AttributeLookup
import DeriveKit.Proofs.Grammar
import DeriveKit.Proofs.LastRegistered

/-!
# DeriveKit.Proofs.DottedNames

Names written with dots. Splitting a text at its dots loses nothing (`QualName.dotted_ofDotted`);
joining the segments of a name with dots loses nothing exactly if the dots of the text are those
between segments (`QualName.ofDotted_dotted_iff`). Generators and options are asked for by split
names and looked up by joined ones, so whatever text they are registered or kept under, an entry or
a key that is written by splitting it leads to them.

* `Request.Calls` — an entry with the name it is written with and the fields of its record;
* `Request.FirstField`, `Request.Gives` — the field with a key, and what a generator reads;
* `Request.dotted_names_survive` — the result.
-/

namespace DeriveKit

/-! ## splitting and joining -/

namespace QualName

variable {m n : QualName}

/-- No segment of the name has a dot in it. -/
def IsDotFree (n : QualName) : Prop := ∀ s ∈ n.segments, IsSegment s

/-- What a text is split into has no dots in its segments. -/
theorem isDotFree_ofDotted (s : String) : (ofDotted s).IsDotFree :=
  fun _ ht => dot_not_mem_of_mem_segments_ofDotted ht

/-- Joining and splitting a name gives it back exactly if the dots of the text are those between
segments. -/
theorem ofDotted_dotted_iff : ofDotted n.dotted = n ↔ n.IsDotFree := by
  constructor
  · intro h
    rw [← h]
    exact isDotFree_ofDotted n.dotted
  · exact ofDotted_dotted

/-- Names without dots in their segments are told apart when they are joined. -/
theorem IsDotFree.eq_of_dotted_eq (hm : m.IsDotFree) (hn : n.IsDotFree)
    (h : m.dotted = n.dotted) : m = n :=
  calc m = ofDotted m.dotted := (ofDotted_dotted_iff.2 hm).symm
    _ = ofDotted n.dotted := by rw [h]
    _ = n := ofDotted_dotted_iff.2 hn

end QualName

/-! ## looking up a request -/

namespace Registry

/-- The request is answered by `g`, whatever is asked for after it. -/
def Finds (r : Registry) (g : Generator) (request : Request) : Prop :=
  ∀ rest, r.choose (request :: rest) = do return (g, request) :: (← r.choose rest)

/-- The last generator registered under the name of a request answers it. -/
theorem finds_of_lastNamed {history : List Generator} {g : Generator} {request : Request}
    (h : lastNamed history request.name = some g) : (ofList history).Finds g request := by
  intro rest
  have hlookup : (ofList history).lookup request.name = some g :=
    (lookup_ofList history request.name).trans h
  rw [choose, hlookup]

end Registry

namespace Request

/-! ## keys -/

/-- A request has an option with the key, and `value` is what a generator reads under it. -/
def Gives (request : Request) (key : String) (value : Expr Payload) : Prop :=
  ∀ (α : Type) (generator : String) (decoder : Decoder Payload α),
    Setting.readValue? generator decoder request.settings key =
      some <$> value.readValue generator decoder

/-- The first of the fields whose key comes to `key`; it is written by splitting `key`. -/
def FirstField (fields : List Field) (key : String) (field : Field) : Prop :=
  ∃ before after, fields = before ++ field :: after ∧ field.1.value = .ofDotted key ∧
    ∀ b ∈ before, b.1.value.dotted ≠ key

/-- Whether the key of a field comes to `key`. -/
def hasKey (key : String) (field : Field) : Bool := field.1.value.dotted == key

variable {fields others : List Field} {field : Field} {key : String} {isOptional : Bool}

/-- The first field of a key is what a search for the key finds. -/
theorem FirstField.find?_eq (h : FirstField fields key field) :
    fields.find? (hasKey key) = some field := by
  obtain ⟨before, after, rfl, hkey, hbefore⟩ := h
  have hfield : hasKey key field = true := by simp [hasKey, hkey, QualName.dotted_ofDotted]
  have hother : ∀ b ∈ before, ¬ hasKey key b = true := by simpa [hasKey] using hbefore
  exact List.find?_eq_some_iff_append.2 ⟨hfield, before, after, rfl, by simpa using hother⟩

/-- Taking the reserved field away does not touch what is found under other keys. -/
theorem Options.find?_eq (h : Options fields isOptional others) (hkey : key ≠ optionalKey) :
    others.find? (hasKey key) = fields.find? (hasKey key) := by
  cases h with
  | unreserved h => rfl
  | @reserved before field isOptional after hbefore hfield hvalue =>
      have hother : hasKey key field = false := by
        rw [hasKey, isReserved_iff.1 hfield]
        exact beq_false_of_ne hkey.symm
      rw [List.find?_append, List.find?_append, List.find?_cons, hother]

/-- The first reserved field is the one that says whether the entry is optional. -/
theorem Options.truth_of_firstField (h : Options fields isOptional others)
    (hfield : FirstField fields optionalKey field) : Truth field.2 isOptional := by
  have hreserved (b : Field) : hasKey optionalKey b = true ↔ IsReserved b :=
    beq_iff_eq.trans isReserved_iff.symm
  have hfirst := hfield.find?_eq
  cases h with
  | unreserved h =>
      have hmem : field ∈ fields := List.mem_of_find?_eq_some hfirst
      exact absurd ((hreserved field).1 (List.find?_some hfirst)) (h field hmem)
  | @reserved before first isOptional after hbefore hreserves hvalue =>
      have hfound : (before ++ first :: after).find? (hasKey optionalKey) = some first :=
        List.find?_eq_some_iff_append.2 ⟨(hreserved first).2 hreserves, before, after, rfl,
          fun b hb => by simpa using mt (hreserved b).1 (hbefore b hb)⟩
      obtain rfl : first = field := by simpa [hfound] using hfirst
      exact hvalue

/-- A generator reads the first field with a key. -/
theorem gives_of_find? {request : Request} (hsettings : request.settings = others.map settingOf)
    (h : others.find? (hasKey key) = some field) : request.Gives key field.2 := by
  intro α generator decoder
  have hfind : request.settings.find? (fun s => s.key == key) = some (settingOf field) := by
    rw [hsettings, List.find?_map]
    exact congrArg (Option.map settingOf) h
  rw [Setting.readValue?, hfind]
  rfl

/-! ## entries -/

/-- An entry that is written with the name `n`: the name alone, or applied to a record with the
given fields. -/
inductive Calls (n : QualName) : Expr Payload → List Field → Prop
  | name (place span : Span) (attributes : List (Attribute Payload)) :
    Calls n ⟨.ident ⟨n, place⟩, span, attributes⟩ []
  | record {callee arg : Expr Payload} {fields : List Field} {place : Span} (span : Span)
    (attributes : List (Attribute Payload)) (hcallee : callee.shape = .ident ⟨n, place⟩)
    (harg : arg.shape = .record fields none) :
    Calls n ⟨.apply callee [(.positional, arg)], span, attributes⟩ fields

/-- An entry asks for the generator whose name is joined from the name it is written with. -/
theorem Calls.ofEntry_eq {n : QualName} {e : Expr Payload} (h : Calls n e fields)
    (hoptions : Options fields isOptional others) :
    ofEntry e = .ok ⟨n.dotted, e.span, others.map settingOf, isOptional⟩ := by
  cases h with
  | name place span attributes =>
      have hsplit := hoptions.splitOptional_eq n.dotted
      obtain ⟨rfl, hothers⟩ : false = isOptional ∧ [] = others.map settingOf := by
        simpa [splitOptional] using hsplit
      rw [← hothers]
      rfl
  | record span attributes hcallee harg =>
      rw [ofEntry_record span attributes hcallee harg, hoptions.splitOptional_eq]
      rfl

/-- **Dotted names survive.** Every text is joined again from what it is split into, and a name is
split again from what it is joined to exactly if none of its segments has a dot; a dot splits off
the last segment. So names without dots in their segments are told apart when they are joined. An
entry asks for the joined name: if it is written by splitting the name that a generator is
registered under, it is answered by that generator, wherever it stands; and of its options, a key
that is written by splitting a text is the one a generator reads under that text, or, if it is the
reserved one, says whether the entry is optional. -/
theorem dotted_names_survive :
    (∀ s : String, (QualName.ofDotted s).dotted = s) ∧
    (∀ n : QualName, QualName.ofDotted n.dotted = n ↔ n.IsDotFree) ∧
    (∀ s last : String, IsSegment last →
      QualName.ofDotted (s ++ "." ++ last) = (QualName.ofDotted s).member last) ∧
    (∀ m n : QualName, m.IsDotFree → n.IsDotFree → m.dotted = n.dotted → m = n) ∧
    ∀ (n : QualName) (e : Expr Payload) (fields others : List Field) (isOptional : Bool),
      Calls n e fields → Options fields isOptional others →
      ∃ request, ofEntry e = .ok request ∧ request.name = n.dotted ∧
        (∀ (history : List Generator) (g : Generator) (name : String), n = .ofDotted name →
          lastNamed history name = some g → (Registry.ofList history).Finds g request) ∧
        (∀ key field, key ≠ optionalKey → FirstField fields key field →
          request.Gives key field.2) ∧
        ∀ field, FirstField fields optionalKey field → Truth field.2 request.isOptional := by
  refine ⟨QualName.dotted_ofDotted, fun n => QualName.ofDotted_dotted_iff,
    fun s last hlast => QualName.ofDotted_append_dot s hlast,
    fun m n hm hn => hm.eq_of_dotted_eq hn, fun n e fields others isOptional hcalls hoptions => ?_⟩
  refine ⟨_, hcalls.ofEntry_eq hoptions, rfl, fun history g name hname hg => ?_,
    fun key field hkey hfield => ?_, fun field hfield => hoptions.truth_of_firstField hfield⟩
  · have hjoined : n.dotted = name := hname ▸ QualName.dotted_ofDotted name
    exact Registry.finds_of_lastNamed (hjoined ▸ hg)
  · have hfind : others.find? (hasKey key) = some field :=
      (hoptions.find?_eq hkey).trans hfield.find?_eq
    exact gives_of_find? rfl hfind

/-- The option `show.depth` of the entry below. -/
def depthField : Field := (⟨.ofDotted "show.depth", ⟨9, 44⟩⟩, .int 3 ⟨24, 25⟩)

/-- The mark of an optional entry, in the entry below. -/
def optionalField : Field := (⟨.ofDotted "optional", ⟨9, 44⟩⟩, .bool true ⟨38, 42⟩)

/-- The entry `ppx.show { show.depth = 3; optional = true }`. -/
def qualifiedEntry : Expr Payload :=
  .apply (.var "ppx.show" ⟨0, 8⟩)
    [.record
      [(.ofDotted "show.depth", .int 3 ⟨24, 25⟩), (.ofDotted "optional", .bool true ⟨38, 42⟩)]
      ⟨9, 44⟩]
    ⟨0, 44⟩

/-- A qualified entry is answered by the generator of that name and not by another one with the same
last segment, and its qualified option is read. -/
theorem dotted_names_survive_qualifiedEntry :
    QualName.ofDotted ("ppx" ++ "." ++ "show") = (QualName.ofDotted "ppx").member "show" ∧
    (⟨["ppx"], "show"⟩ : QualName) = .ofDotted "ppx.show" ∧
    ∃ request, ofEntry qualifiedEntry = .ok request ∧ request.name = "ppx.show" ∧
      (Registry.ofList [.echo "ppx.show", .echo "show"]).Finds (.echo "ppx.show") request ∧
      request.Gives "show.depth" (.int 3 ⟨24, 25⟩) ∧
      Truth (.bool true ⟨38, 42⟩) request.isOptional := by
  obtain ⟨-, -, hmember, hinjective, hentries⟩ := dotted_names_survive
  have hcalls : Calls (.ofDotted "ppx.show") qualifiedEntry [depthField, optionalField] :=
    .record ⟨0, 44⟩ [] rfl rfl
  have hbefore : ∀ b ∈ [depthField], b.1.value.dotted ≠ optionalKey := by decide
  have hoptions : Options [depthField, optionalField] true [depthField] :=
    @Options.reserved [depthField] optionalField true []
      (fun b hb => mt isReserved_iff.1 (hbefore b hb)) rfl (.yes ⟨38, 42⟩ ⟨38, 42⟩ [])
  have hdepth : FirstField [depthField, optionalField] "show.depth" depthField :=
    ⟨[], [optionalField], rfl, rfl, nofun⟩
  have hoptional : FirstField [depthField, optionalField] optionalKey optionalField :=
    ⟨[depthField], [], rfl, rfl, hbefore⟩
  obtain ⟨request, hread, hname, hfinds, hgives, htruth⟩ :=
    hentries _ _ _ _ _ hcalls hoptions
  refine ⟨hmember "ppx" "show" (by decide), hinjective _ _ ?_ ?_ ?_, request, hread,
    hname.trans (QualName.dotted_ofDotted "ppx.show"), hfinds _ _ "ppx.show" rfl rfl,
    hgives _ _ (by decide) hdepth, htruth _ hoptional⟩
  · simp [QualName.IsDotFree, QualName.segments, IsSegment]
  · exact QualName.isDotFree_ofDotted "ppx.show"
  · exact (QualName.dotted_ofDotted "ppx.show").symm

end Request

end DeriveKit
