import DeriveKit.Proofs.Reading
import DeriveKit.Text.Payload
import DeriveKit.Tree.Erase

/-!
# DeriveKit.Proofs.ReadType

The text of a type can be read back. `TypeExpr.isLegible` says which types have a text that can be
read at all, and `TypeExpr.read` reads it, given a bound on the depth; the length of the text is
always enough (`TypeExpr.ofText`).

A type stands in one of several positions, and in each another sign ends it:

* `ReadsAtom` — anything that stands between spaces;
* `ReadsOperand` — with type constructors applied after it, up to `OperandStops`;
* `ReadsProduct` — with stars in it, up to `ProductStops`;
* `ReadsType` — anything, up to `Closing`.

Each position reads what the one before it reads, and parentheses lead from the last back to the
first (`ReadsType.parens`).
-/

namespace DeriveKit

variable {π ρ : Type}

/-! ## types whose text can be read back -/

/-- Whether the label, if there is one, is a name. -/
def ArgLabel.isNamed : ArgLabel → Bool
  | .positional => true
  | .labelled label | .optional label => isName label

/-- Whether the tags are names, and are given at all if a variant is open because of them. -/
def isBound : Openness → Option (List String) → Bool
  | _, none => true
  | .extensible, some [] => false
  | _, some tags => tags.all isName

mutual

/-- Whether a type is made of names and of forms that are written out: no attributes, no extension
nodes, products of two types or more, and no quantifier without variables. -/
def TypeExpr.isLegible : TypeExpr π → Bool
  | ⟨shape, _, attributes⟩ => attributes.isEmpty && TypeShape.isLegible shape

/-- Whether a form of type is made of names and of forms that are written out. -/
def TypeShape.isLegible : TypeShape π → Bool
  | .any => true
  | .var name => isName name
  | .arrow label domain codomain =>
      label.isNamed && TypeExpr.isLegible domain && TypeExpr.isLegible codomain
  | .tuple elements => decide (2 ≤ elements.length) && TypeExpr.allLegible elements
  | .constr name args => name.value.isNamed && TypeExpr.allLegible args
  | .object methods _ => TypeExpr.methodsLegible methods
  | .aliased body name => isName name.value && TypeExpr.isLegible body
  | .variant rows openness lower => isBound openness lower && Row.allLegible rows
  | .poly vars body =>
      !vars.isEmpty && (vars.all fun v => isName v.value) && TypeExpr.isLegible body
  | .package name => name.value.isNamed
  | .extension _ => false

/-- Whether types are made of names and of forms that are written out. -/
def TypeExpr.allLegible : List (TypeExpr π) → Bool
  | [] => true
  | t :: rest => TypeExpr.isLegible t && TypeExpr.allLegible rest

/-- Whether methods are made of names and of forms that are written out. -/
def TypeExpr.methodsLegible : List (Located String × TypeExpr π) → Bool
  | [] => true
  | (name, t) :: rest =>
      isName name.value && TypeExpr.isLegible t && TypeExpr.methodsLegible rest

/-- Whether a row is made of names and of forms that are written out. A tag without arguments is
written as one that is a value by itself. -/
def Row.isLegible : Row π → Bool
  | ⟨.tag label constant args, _, attributes⟩ =>
      attributes.isEmpty && isName label.value && (constant || !args.isEmpty) &&
        TypeExpr.allLegible args
  | ⟨.inherit t, _, attributes⟩ => attributes.isEmpty && TypeExpr.isLegible t

/-- Whether rows are made of names and of forms that are written out. -/
def Row.allLegible : List (Row π) → Bool
  | [] => true
  | r :: rest => Row.isLegible r && Row.allLegible rest

end

/-! ## the reader -/

namespace TypeExpr

/-- The form as a type that was written nowhere. -/
def made (shape : TypeShape ρ) : TypeExpr ρ := bare shape .generated

/-- A type constructor applied to one argument after another. -/
def applied (t : TypeExpr ρ) : List QualName → TypeExpr ρ
  | [] => t
  | name :: names => applied (constr name [t] .generated) names

/-- The label that a type is spelled like, if it is. -/
def label? (t : TypeExpr ρ) : Option String :=
  match t.shape with
  | .constr ⟨⟨[], name⟩, _⟩ [] => some name
  | _ => none

variable (inner : Reader (TypeExpr ρ))

/-- Reads a wildcard or the name of a type. -/
def readWord : Reader (TypeExpr ρ) := fun cs =>
  match expect "_" cs, readQualName cs with
  | _, some (name, rest) => some (constr name [] .generated, rest)
  | some rest, none => some (any .generated, rest)
  | none, none => none

/-- Reads what stands after an opening parenthesis: a type, the arguments of a constructor, or a
package. -/
def readParens : Reader (TypeExpr ρ) := fun cs =>
  match sepBy ", " inner cs with
  | some ([t], rest) => do
    let rest ← expect ")" rest
    some (t, rest)
  | some (args, rest) => do
    let rest ← expect ") " rest
    let (name, rest) ← readQualName rest
    some (constr name args .generated, rest)
  | none => do
    let rest ← expect "module " cs
    let (name, rest) ← readQualName rest
    let rest ← expect ")" rest
    some (made (.package (.generated name)), rest)

/-- Reads a method. -/
def readMethod : Reader (Located String × TypeExpr ρ) := fun cs => do
  let (name, rest) ← readName cs
  let rest ← expect " : " rest
  let (t, rest) ← inner rest
  some ((.generated name, t), rest)

/-- Reads what stands after the opening bracket of an object type. -/
def readObject : Reader (TypeExpr ρ) := fun cs =>
  match after " " (sepBy "; " (readMethod inner)) cs with
  | some (methods, rest) =>
      match expect " >" rest, expect "; .. >" rest with
      | some rest, _ => some (made (.object methods .closed), rest)
      | none, some rest => some (made (.object methods .extensible), rest)
      | none, none => none
  | none =>
      match expect " >" cs, expect " .. >" cs with
      | some rest, _ => some (made (.object [] .closed), rest)
      | none, some rest => some (made (.object [] .extensible), rest)
      | none, none => none

/-- Reads the tags of a lower bound, if one is given. -/
def readLower (cs : List Char) : Option (List String) × List Char :=
  match expect " >" cs with
  | some rest => (some (many (after " `" readName) rest).1, (many (after " `" readName) rest).2)
  | none => (none, cs)

/-- Reads what stands after the tag of a row: the arguments, if there are any. -/
def readTag (label : String) : Reader (Row ρ) := fun cs =>
  match expect " of " cs with
  | none => some (⟨.tag (.generated label) true [], .generated, []⟩, cs)
  | some rest =>
      match sepBy " & " inner rest with
      | some (args, rest) => some (⟨.tag (.generated label) false args, .generated, []⟩, rest)
      | none => do
        let rest ← expect "& " rest
        let (args, rest) ← sepBy " & " inner rest
        some (⟨.tag (.generated label) true args, .generated, []⟩, rest)

/-- Reads a row. -/
def readRow : Reader (Row ρ) := fun cs =>
  match inner cs with
  | some (t, rest) => some (⟨.inherit t, .generated, []⟩, rest)
  | none => do
    let rest ← expect "`" cs
    let (label, rest) ← readName rest
    readTag inner label rest

/-- What the sign of a variant and the tags after its rows say about further rows. -/
def bounds : Option Openness → Option (List String) → Openness × Option (List String)
  | none, _ => (.closed, none)
  | some .closed, lower => (.closed, some (lower.getD []))
  | some .extensible, lower => (.extensible, lower)

/-- Reads the rows and the lower bound of a variant with the given sign. -/
def readRows (sign : Option Openness) : Reader (TypeExpr ρ) := fun cs => do
  let (rows, rest) := (sepBy " | " (readRow inner) cs).getD ([], cs)
  let (lower, rest) := readLower rest
  let rest ← expect " ]" rest
  some (made (.variant rows (bounds sign lower).1 (bounds sign lower).2), rest)

/-- Reads what stands after the opening bracket of a variant. -/
def readVariant : Reader (TypeExpr ρ) := fun cs =>
  match expect " " cs, expect "< " cs, expect "> " cs with
  | some rest, _, _ => readRows inner none rest
  | none, some rest, _ => readRows inner (some .closed) rest
  | none, none, some rest => readRows inner (some .extensible) rest
  | none, none, none => none

/-- Reads a type that no operator takes apart. -/
def readAtom : Reader (TypeExpr ρ)
  | '(' :: cs => readParens inner cs
  | '<' :: cs => readObject inner cs
  | '[' :: cs => readVariant inner cs
  | '\x27' :: cs => do
    let (name, rest) ← readName cs
    some (var name .generated, rest)
  | cs => readWord cs

/-- Reads an atom and the constructors applied to it. -/
def readOperand : Reader (TypeExpr ρ) := fun cs => do
  let (t, rest) ← readAtom inner cs
  let (names, rest) := many (after " " readQualName) rest
  some (t.applied names, rest)

/-- Reads a product of operands, or a single one. -/
def readProduct : Reader (TypeExpr ρ) := fun cs => do
  let (operands, rest) ← sepBy " * " (readOperand inner) cs
  match operands with
  | [t] => some (t, rest)
  | _ => some (tuple operands .generated, rest)

/-- Reads a function type whose argument is passed in the given way. -/
def readArrow (label : ArgLabel) : Reader (TypeExpr ρ) := fun cs => do
  let (domain, rest) ← readProduct inner cs
  let rest ← expect " -> " rest
  let (codomain, rest) ← inner rest
  some (made (.arrow label domain codomain), rest)

/-- Reads what stands after a quantified variable: more variables, and the body. -/
def readPoly (name : String) : Reader (TypeExpr ρ) := fun cs => do
  let (names, rest) := many (after " '" readName) cs
  let rest ← expect ". " rest
  let (body, rest) ← inner rest
  some (made (.poly ((name :: names).map .generated) body), rest)

/-- Reads what goes on with a product `t`: an arrow, a name for the type, a type if `t` was a label,
or a quantified type if it was a variable. -/
def readRest (t : TypeExpr ρ) : Reader (TypeExpr ρ) := fun cs =>
  match expect " -> " cs, expect " as '" cs, expect ":" cs,
    t.varName?.bind (readPoly inner · cs) with
  | some rest, _, _, _ => do
    let (codomain, rest) ← inner rest
    some (made (.arrow .positional t codomain), rest)
  | none, some rest, _, _ => do
    let (name, rest) ← readName rest
    some (made (.aliased t (.generated name)), rest)
  | none, none, some rest, _ => do
    let label ← t.label?
    readArrow inner (.labelled label) rest
  | none, none, none, some poly => some poly
  | none, none, none, none => some (t, cs)

/-- Reads any type whose parts `inner` can read. -/
def readStep : Reader (TypeExpr ρ) := fun cs =>
  match readProduct inner cs with
  | some (t, rest) => readRest inner t rest
  | none => do
    let rest ← expect "?" cs
    let (label, rest) ← readName rest
    let rest ← expect ":" rest
    readArrow inner (.optional label) rest

/-- Reads any type that is nested no deeper than `depth`. -/
def read : Nat → Reader (TypeExpr ρ)
  | 0 => fun _ => none
  | depth + 1 => readStep (read depth)

/-- Reads a text as a type, if it is the text of one. -/
def ofText (s : String) : Option (TypeExpr ρ) :=
  match read (s.length + 1) s.toList with
  | some (t, []) => some t
  | _ => none


/-! ## what a type is followed by -/

/-- What may stand after a type that stands alone, apart from the end of the text. -/
def closers : List String := [")", ",", ";", " >", " |", " &", " ]"]

/-- What may stand after a type that stands alone. -/
abbrev Closing (cs : List Char) : Prop := StopsAt closers cs

/-- What may stand after an operand: no other constructor is applied to it. -/
structure OperandStops (cs : List Char) : Prop where
  ends : Ends isPathChar cs
  not_applied : after " " readQualName cs = none

/-- What may stand after a product: it has no further operand. -/
structure ProductStops (cs : List Char) : Prop extends OperandStops cs where
  not_multiplied : expect " * " cs = none

/-- After a blank, a sign is no constructor that is applied to what stands before it. -/
theorem after_space_sign {c : Char} (h : isPathChar c = false) (cs : List Char) :
    after " " readQualName (' ' :: c :: cs) = none :=
  (after_append " " (c :: cs)).trans (readQualName_of_ends (c :: cs) h)

/-- Nor is a reserved word, so `as` does not go on with the operand before it. -/
theorem after_space_reserved {w : String} (h : w ∈ reservedWords) (cs : List Char)
    (hcs : Ends isPathChar cs) : after " " readQualName (" ".toList ++ (w.toList ++ cs)) = none :=
  (after_append " " (w.toList ++ cs)).trans (readQualName_of_reserved h cs hcs)

/-- An operand ends before the `*` of a product (`OperandStops`). -/
theorem operandStops_times (cs : List Char) : OperandStops (" * ".toList ++ cs) where
  ends := rfl
  not_applied := after_space_sign (c := '*') rfl (' ' :: cs)

/-- A product ends before an arrow (`ProductStops`). -/
theorem productStops_arrow (cs : List Char) : ProductStops (" -> ".toList ++ cs) where
  ends := rfl
  not_applied := after_space_sign (c := '-') rfl ('>' :: ' ' :: cs)
  not_multiplied := expect_of_clash (by decide) cs

/-- A product ends before the name that the whole type is given. -/
theorem productStops_aliased (cs : List Char) : ProductStops (" as '".toList ++ cs) where
  ends := rfl
  not_applied := after_space_reserved (w := "as") (by decide) (' ' :: '\x27' :: cs) rfl
  not_multiplied := expect_of_clash (by decide) cs

/-- A label ends before its colon: until then it is read as a product of one operand. -/
theorem productStops_label (cs : List Char) : ProductStops (":".toList ++ cs) where
  ends := rfl
  not_applied := after_of_expect (expect_of_clash (by decide) cs)
  not_multiplied := expect_of_clash (by decide) cs

/-- What closes a type also ends the last product in it. -/
theorem Closing.productStops {cs : List Char} (h : Closing cs) : ProductStops cs := by
  refine ⟨?_, h.expect_eq_none (by decide)⟩
  cases h with
  | nil => exact ⟨trivial, rfl⟩
  | lead h cs =>
      simp only [closers, List.mem_cons, List.not_mem_nil, or_false] at h
      obtain rfl | rfl | rfl | rfl | rfl | rfl | rfl := h
      · exact ⟨rfl, after_of_expect (expect_of_clash (by decide) cs)⟩
      · exact ⟨rfl, after_of_expect (expect_of_clash (by decide) cs)⟩
      · exact ⟨rfl, after_of_expect (expect_of_clash (by decide) cs)⟩
      · exact ⟨rfl, after_space_sign (c := '>') rfl cs⟩
      · exact ⟨rfl, after_space_sign (c := '|') rfl cs⟩
      · exact ⟨rfl, after_space_sign (c := '&') rfl cs⟩
      · exact ⟨rfl, after_space_sign (c := ']') rfl cs⟩

/-- Where a type closes, `readRest` leaves the product before it as it is. -/
theorem Closing.readRest {cs : List Char} (h : Closing cs) (inner : Reader (TypeExpr ρ))
    (t : TypeExpr ρ) : readRest inner t cs = some (t, cs) := by
  have hpoly : ∀ name, readPoly inner name cs = none := by
    intro name
    have hmany : many (after " '" readName) cs = ([], cs) :=
      many_of_none (after_of_expect (h.expect_eq_none (by decide)))
    simp [readPoly, hmany, h.expect_eq_none (w := ". ") (by decide)]
  have hvar : t.varName?.bind (readPoly inner · cs) = none := by
    cases t.varName? with
    | none => rfl
    | some name => exact hpoly name
  rw [TypeExpr.readRest, hvar, h.expect_eq_none (by decide), h.expect_eq_none (by decide),
    h.expect_eq_none (by decide)]

/-! ## what is read in each position -/

/-- The text of an atom is read as `t`. -/
def ReadsAtom (text : String) (t : TypeExpr ρ) : Prop :=
  ∀ depth, text.length ≤ depth → Reads (readAtom (read depth)) (Ends isPathChar) text t

/-- The text of an atom with the constructors applied to it is read as `t`. -/
def ReadsOperand (text : String) (t : TypeExpr ρ) : Prop :=
  ∃ (first : String) (atom : TypeExpr ρ) (names : List QualName),
    ReadsAtom first atom ∧ (∀ n ∈ names, n.isNamed) ∧
      text = first ++ leadEach " " (names.map QualName.text) ∧ t = atom.applied names

/-- The text of a product, or of one operand, is read as `t`. -/
def ReadsProduct (text : String) (t : TypeExpr ρ) : Prop :=
  ∀ depth, text.length ≤ depth → Reads (readProduct (read depth)) ProductStops text t

/-- The text of a type that stands alone is read as `t`. -/
def ReadsType (text : String) (t : TypeExpr ρ) : Prop :=
  ∀ depth, text.length < depth → Reads (read depth) Closing text t

section

variable {text : String} {t : TypeExpr ρ}

/-- An atom is an operand that no constructor is applied to. -/
theorem ReadsAtom.operand (h : ReadsAtom text t) : ReadsOperand text t :=
  ⟨text, t, [], h, by simp, by rw [List.map_nil, leadEach, String.append_empty], rfl⟩

/-- The last constructor in a chain is the outermost one. -/
theorem applied_append (t : TypeExpr ρ) (names : List QualName) (name : QualName) :
    t.applied (names ++ [name]) = constr name [t.applied names] .generated := by
  induction names generalizing t with
  | nil => rfl
  | cons n names ih => exact ih _

/-- A constructor after an operand is applied to it, and to the whole of it. -/
theorem ReadsOperand.applied (h : ReadsOperand text t) {name : QualName} (hname : name.isNamed) :
    ReadsOperand (text ++ " " ++ name.text) (constr name [t] .generated) := by
  obtain ⟨first, atom, names, hatom, hnames, rfl, rfl⟩ := h
  refine ⟨first, atom, names ++ [name], hatom, ?_, ?_, (applied_append atom names name).symm⟩
  · intro n hn
    obtain hn | hn := List.mem_append.1 hn
    · exact hnames n hn
    · exact List.mem_singleton.1 hn ▸ hname
  · rw [List.map_append, leadEach_append, List.map_singleton, leadEach, leadEach,
      String.append_empty, String.append_assoc, String.append_assoc]

/-- `readOperand` reads an operand: an atom, and all constructors that follow. -/
theorem ReadsOperand.reads (h : ReadsOperand text t) {depth : Nat} (hdepth : text.length ≤ depth) :
    Reads (readOperand (read depth)) OperandStops text t := by
  obtain ⟨first, atom, names, hatom, hnames, rfl, rfl⟩ := h
  intro rest hrest
  have hspace : ∀ cs : List Char, Ends isPathChar (" ".toList ++ cs) := fun _ => rfl
  have hends : Ends isPathChar ((leadEach " " (names.map QualName.text)).toList ++ rest) := by
    cases names with
    | nil => exact hrest.ends
    | cons n names =>
        rw [List.map_cons, leadEach, String.append_assoc, String.toList_append, List.append_assoc]
        exact hspace _
  have hfirst : first.length ≤ depth := by
    rw [String.length_append] at hdepth
    omega
  have hmany := many_leadEach (f := QualName.text) (g := id)
    (fun n hn => reads_readQualName (hnames n hn)) (by decide) hspace hrest.ends hrest.not_applied
  rw [String.toList_append, List.append_assoc, readOperand, hatom depth hfirst _ hends]
  simp [hmany]

/-- An operand by itself is a product of one, which `readProduct` gives back as it is. -/
theorem ReadsOperand.product (h : ReadsOperand text t) : ReadsProduct text t := by
  intro depth hdepth rest hrest
  rw [readProduct, sepBy, h.reads hdepth rest hrest.toOperandStops]
  simp [many_of_none (after_of_expect hrest.not_multiplied)]

/-- A product is a type by itself, because nothing goes on with it where the type closes. -/
theorem ReadsProduct.type (h : ReadsProduct text t) : ReadsType text t := by
  intro depth hdepth rest hrest
  obtain ⟨depth, rfl⟩ := Nat.exists_eq_add_of_lt hdepth
  rw [read, readStep, h _ (by omega) rest hrest.productStops]
  exact hrest.readRest _ t

/-- The position of a type says how its text is read. -/
def ReadsAt : TypePosition → String → TypeExpr ρ → Prop
  | .top => ReadsType
  | .domain => ReadsProduct
  | .element | .argument => ReadsOperand

/-- An operand needs no parentheses, wherever it stands (`ReadsAt`). -/
theorem ReadsOperand.at (h : ReadsOperand text t) (position : TypePosition) :
    ReadsAt position text t := by
  cases position with
  | top => exact h.product.type
  | domain => exact h.product
  | element | argument => exact h

/-- Any type is an atom once it stands in parentheses. -/
theorem ReadsType.parens (h : ReadsType text t) : ReadsAtom ("(" ++ text ++ ")") t := by
  intro depth hdepth rest _
  have htext : text.length < depth := by
    simp only [String.length_append] at hdepth
    have : "(".length = 1 := rfl
    omega
  have hclosing : Closing (")".toList ++ rest) := .lead (by decide) rest
  have hend : after ", " (read (ρ := ρ) depth) (")".toList ++ rest) = none :=
    after_of_expect (expect_of_clash (by decide) rest)
  have hopen : (("(" ++ text ++ ")").toList ++ rest) =
    '(' :: (text.toList ++ (")".toList ++ rest)) := by
    simp
  rw [hopen, readAtom, readParens, sepBy, h depth htext _ hclosing]
  simp only [many_of_none hend, expect_append]
  rfl

/-- Any type can be read in any position if the nested ones have parentheses around it. -/
theorem ReadsType.at (h : ReadsType text t) (position : TypePosition) :
    ReadsAt position (DeriveKit.parens position.isNested text) t := by
  cases position with
  | top => exact h
  | domain | element | argument => exact h.parens.operand.at _

/-- A product needs parentheses only where it would be taken apart. -/
theorem ReadsProduct.at (h : ReadsProduct text t) (position : TypePosition) :
    ReadsAt position (DeriveKit.parens position.splitsProduct text) t := by
  cases position with
  | top => exact h.type
  | domain => exact h
  | element | argument => exact h.type.parens.operand

end

end TypeExpr

end DeriveKit
