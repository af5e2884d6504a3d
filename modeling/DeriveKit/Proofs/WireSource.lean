import DeriveKit.Wire.Expr
import DeriveKit.Wire.Decl

/-!
# DeriveKit.Proofs.WireSource

Reading what was written in the exchange format, for values without payloads: texts, characters and
bounds, names and spans, flags and literals. Lists, pairs and values that may be absent are read
back if what they are made of is. A format is faithful (`RoundTrips`) as soon as reading undoes
writing.
-/

namespace DeriveKit

/-- Reading undoes writing, no two values are written alike, and what is read from any data is
written in a form that stays the same when it is read and written again. -/
structure RoundTrips {α : Type} (encode : α → Data) (decode : Data → Option α) : Prop where
  decode_encode : ∀ a, decode (encode a) = some a
  injective : ∀ a b, encode a = encode b → a = b
  fixed : ∀ d a, decode d = some a → (decode (encode a)).map encode = some (encode a)

/-- A format is faithful if reading undoes writing. -/
theorem RoundTrips.of_decode_encode {α : Type} {encode : α → Data} {decode : Data → Option α}
    (h : ∀ a, decode (encode a) = some a) : RoundTrips encode decode where
  decode_encode := h
  injective a b hab := by
    have hread : some a = some b := by rw [← h a, ← h b, hab]
    exact Option.some.inj hread
  fixed _ a _ := by rw [h, Option.map_some]

namespace Data

variable {α β : Type}

/-! ## depth -/

/-- All data has some depth, so no bound of zero is enough (`not_depth_le_zero`). -/
theorem depth_pos (d : Data) : 0 < d.depth := by
  cases d <;> simp [depth]

theorem not_depth_le_zero (d : Data) : ¬ d.depth ≤ 0 := Nat.not_le.2 d.depth_pos

/-- A choice is one deeper than its argument. -/
theorem depth_choice (name : String) (arg : Data) : (choice name arg).depth = arg.depth + 1 := by
  simp [choice, depth, depthMembers]

/-- Data stands within a bound together exactly if each piece does. -/
theorem depthItems_le_iff {items : List Data} {n : Nat} :
    depthItems items ≤ n ↔ ∀ d ∈ items, d.depth ≤ n := by
  induction items with
  | nil => simp [depthItems]
  | cons d rest ih => rw [depthItems, Nat.max_le, ih, List.forall_mem_cons]

/-- A list is deeper than each of its items. -/
theorem depth_ofList_le_iff {item : α → Data} {l : List α} {n : Nat} :
    (ofList item l).depth ≤ n + 1 ↔ ∀ a ∈ l, (item a).depth ≤ n := by
  rw [ofList, depth, Nat.add_le_add_iff_right, depthItems_le_iff, List.forall_mem_map]

/-! ## structures and choices -/

/-- The members of an object are found by their names, in the order that is asked for. -/
@[simp] theorem fields?_object (names : List String) (members : List (String × Data)) :
    fields? names (object members) = some (names.map (member members)) := rfl

/-- The first member of a name is the one that counts. -/
@[simp] theorem member_cons (name other : String) (d : Data) (rest : List (String × Data)) :
    member ((other, d) :: rest) name = if name = other then d else member rest name := by
  by_cases h : name = other
  · simp [member, h]
  · have hne : (name == other) = false := beq_false_of_ne h
    simp [member, List.lookup_cons, h, hne]

/-- A choice is told by its name and gives its argument back. -/
@[simp] theorem choice?_choice (name : String) (arg : Data) :
    (choice name arg).choice? = some (name, arg) := rfl

/-- A choice without an argument is a text by itself. -/
@[simp] theorem choice?_string (name : String) : (string name).choice? = some (name, null) := rfl

/-! ## lists, pairs and options -/

/-- A list is read by reading its members. -/
theorem list?_list (read : Data → Option α) (items : List Data) :
    list? read (list items) = items.mapM read := rfl

/-- A list is read back if its items are. -/
theorem list?_ofList {item : α → Data} {read : Data → Option α} {l : List α}
    (h : ∀ a ∈ l, read (item a) = some a) : list? read (ofList item l) = some l := by
  rw [ofList, list?_list]
  induction l with
  | nil => rfl
  | cons a rest ih =>
      obtain ⟨ha, hrest⟩ := List.forall_mem_cons.1 h
      rw [List.map_cons, List.mapM_cons, ha, ih hrest]
      rfl

/-- A pair is a list of two. -/
theorem pair?_list (first : Data → Option α) (second : Data → Option β) (d d' : Data) :
    pair? first second (list [d, d']) = (do return (← first d, ← second d')) := rfl

/-- Only `null` is read as nothing. -/
theorem option?_of_ne_null {read : Data → Option α} {d : Data} (h : d ≠ null) :
    option? read d = (read d).map some := by
  cases d with
  | null => exact absurd rfl h
  | _ => rfl

/-- A value that may be absent is read back if the value is and is not written as `null`. -/
theorem option?_ofOption {value : α → Data} {read : Data → Option α} {o : Option α}
    (hnull : ∀ a, value a ≠ null) (h : ∀ a ∈ o, read (value a) = some a) :
    option? read (ofOption value o) = some o := by
  cases o with
  | none => rfl
  | some a => rw [ofOption, option?_of_ne_null (hnull a), h a rfl, Option.map_some]

/-! ## texts and numbers -/

/-- Texts are read back as they are. -/
@[simp] theorem string?_string (s : String) : (string s).string? = some s := rfl

/-- Lists of texts are read back. -/
@[simp] theorem list?_string?_ofList (l : List String) :
    list? string? (ofList string l) = some l :=
  list?_ofList fun _ _ => rfl

/-- Texts that may be absent are read back. -/
@[simp] theorem option?_string?_ofOption (o : Option String) :
    option? string? (ofOption string o) = some o :=
  option?_ofOption nofun fun _ _ => rfl

@[simp] theorem option?_strings_ofOption (o : Option (List String)) :
    option? (list? string?) (ofOption (ofList string) o) = some o :=
  option?_ofOption nofun fun l _ => list?_string?_ofList l

/-- A character is written as the text of it alone. -/
@[simp] theorem char?_encodeChar (c : Char) : (encodeChar c).char? = some c := by
  simp [encodeChar, char?]

@[simp] theorem option?_char?_ofOption (o : Option Char) :
    option? char? (ofOption encodeChar o) = some o :=
  option?_ofOption nofun fun c _ => char?_encodeChar c

/-- Bounds are written as integers, and are small enough to be read back. -/
@[simp] theorem uint32?_int (n : UInt32) : (int n.toNat).uint32? = some n := by
  have hbound : (0 : Int) ≤ n.toNat ∧ (n.toNat : Int) < UInt32.size :=
    ⟨Int.natCast_nonneg _, Int.ofNat_lt.2 n.toNat_lt⟩
  rw [uint32?, if_pos hbound, Int.toNat_natCast, UInt32.ofNat_toNat]

end Data

/-! ## names and spans -/

/-- Spans are read back. -/
@[simp] theorem Span.decode_encode (s : Span) : Span.decode s.encode = some s := by
  simp [Span.encode, Span.decode]

/-- A located value is read back if the value is. -/
theorem Located.decode_encode {α : Type} {value : α → Data} {read : Data → Option α}
    (h : ∀ a, read (value a) = some a) (l : Located α) :
    Located.decode read (l.encode value) = some l := by
  simp [Located.encode, Located.decode, h]

/-- Qualified names are read back as path and last segment, so no dot can get lost. -/
@[simp] theorem QualName.decode_encode (n : QualName) : QualName.decode n.encode = some n := by
  simp [QualName.encode, QualName.decode]

/-- Names are read back with their places. -/
@[simp] theorem decodeName_encodeName (name : Located String) :
    decodeName (encodeName name) = some name :=
  Located.decode_encode Data.string?_string name

/-- Qualified names are read back with their places. -/
@[simp] theorem decodeQualName_encodeQualName (name : Located QualName) :
    decodeQualName (encodeQualName name) = some name :=
  Located.decode_encode QualName.decode_encode name

/-- A module may go without a name. -/
@[simp] theorem decodeModuleName_encodeModuleName (name : Located (Option String)) :
    decodeModuleName (encodeModuleName name) = some name :=
  Located.decode_encode Data.option?_string?_ofOption name

/-! ## flags and literals -/

/-- Labels are read back, by their kind. -/
@[simp] theorem ArgLabel.decode_encode (label : ArgLabel) :
    ArgLabel.decode label.encode = some label := by
  cases label <;> rfl

@[simp] theorem Openness.decode_encode (openness : Openness) :
    Openness.decode openness.encode = some openness := by
  cases openness <;> rfl

@[simp] theorem Recursion.decode_encode (recursion : Recursion) :
    Recursion.decode recursion.encode = some recursion := by
  cases recursion <;> rfl

@[simp] theorem Variance.decode_encode (variance : Variance) :
    Variance.decode variance.encode = some variance := by
  cases variance <;> rfl

@[simp] theorem decodeOverride_encodeOverride (override : Bool) :
    decodeOverride (encodeOverride override) = some override := by
  cases override <;> rfl

@[simp] theorem decodePrivate_encodePrivate (isPrivate : Bool) :
    decodePrivate (encodePrivate isPrivate) = some isPrivate := by
  cases isPrivate <;> rfl

@[simp] theorem decodeMutable_encodeMutable (isMutable : Bool) :
    decodeMutable (encodeMutable isMutable) = some isMutable := by
  cases isMutable <;> rfl

/-- **Literals are read back**, with their suffixes and delimiters. -/
@[simp] theorem Constant.decode_encode (c : Constant) : Constant.decode c.encode = some c := by
  cases c <;> simp [Constant.encode, Constant.decode]

end DeriveKit
