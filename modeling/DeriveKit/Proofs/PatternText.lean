import DeriveKit.Proofs.ReadPattern
import DeriveKit.Proofs.TypeText

/-!
# DeriveKit.Proofs.PatternText

What is read off the text of a legible pattern is the pattern, but for where it was written
(`Pattern.readsAt`). There is one lemma for each form, given that the texts of its parts are read;
`PatternShape.readsAt` puts them together.

Where a pattern goes on after an atom, what follows says which form it is: an argument after a
constructor or a tag (`ReadsAtom.attached`), or the tail of a list after the infix sign
(`readsPattern_cons`). A legible pattern has no attributes (`Pattern.isEmpty_of_isLegible`).
-/

namespace DeriveKit

namespace Pattern

variable {ρ τ : Type} {text : String} {p q : Pattern ρ} {name : QualName}

/-! ## words -/

/-- A name is read as one, as no other form of pattern begins so. -/
theorem readsAtom_of_readNamed (h : Reads readNamed (Ends isAtomPart) text p)
    (hstart : ∃ c cs, text.toList = c :: cs ∧ isNameStart c) : ReadsAtom text p := fun _ _ =>
  ((h.first.later_of_isNameStart hstart (by decide)).later_of_isNameStart hstart
    (by decide)).later_of_isNameStart hstart (by decide)

/-- A variable is read as such, not as a constructor: it has no capital letter. -/
theorem readsAtom_var {v : String} (h : isLowerName v) :
    ReadsAtom v (made (.var (.generated v)) : Pattern ρ) :=
  readsAtom_of_readNamed
    (((reads_readLower h).weaken fun _ => ends_isNameChar_of_isAtomPart).as _).first
    (exists_isNameStart_of_isName (isName_of_isLowerName h))

/-- A wildcard is read as such. -/
theorem readsAtom_any : ReadsAtom "_" (made .any : Pattern ρ) := by
  refine readsAtom_of_readNamed ?_ ⟨'_', [], rfl, rfl⟩
  have hany : Reads (firstOf [after "_" (readNothing (made .any : Pattern ρ))]) (Ends isAtomPart)
      "_" (made .any) :=
    ((reads_readNothing (made .any)).after "_").first.weaken fun _ _ => trivial
  have hname : ∀ rest, Ends isAtomPart rest → readName ("_".toList ++ rest) = none :=
    fun rest hrest =>
    readName_of_reserved (by decide) (ends_isNameChar_of_isAtomPart hrest)
  have hwords : ∀ w ∈ ["()", "[]", "true", "false"], clash w.toList "_".toList := by decide
  refine (hany.later fun rest hrest => readAs_of_none ?_ _).later fun rest hrest =>
    readAs_of_none (readLower_of_none (hname rest hrest)) _
  exact readConstructorName_of_readName (hname rest hrest) fun w hw =>
    expect_of_clash (hwords w hw) rest

/-- Constructors are told from variables by how they begin, or are no names at all. -/
theorem reads_readNamed_constructor (h : name.isConstructor) :
    Reads readNamed (Ends isAtomPart) name.text
      (made (.construct (.generated name) none) : Pattern ρ) :=
  ((((reads_constructorName h).weaken fun _ => ends_isPathChar_of_isAtomPart).as _).first).later
    fun _ hrest => readAs_of_none
      (readLower_of_isConstructor h (ends_isNameChar_of_isAtomPart hrest)) _

/-- No pattern begins with a closing parenthesis. -/
theorem read_paren (depth : Nat) (cs : List Char) : read (ρ := ρ) depth (')' :: cs) = none := by
  cases depth with
  | zero => rfl
  | succ depth =>
      have hatom : readAtom (read (ρ := ρ) depth) (')' :: cs) = none :=
        readAtom_of_vacant (vacant_of_sign rfl rfl (by decide) cs) _
      rw [read, readStep, firstOf_cons_of_none (andThen_of_none hatom _), firstOf_singleton]
      rfl

/-- So a constructor by itself is read as an atom. -/
theorem readsAtom_constructor (h : name.isConstructor) :
    ReadsAtom name.text (made (.construct (.generated name) none) : Pattern ρ) := by
  have hread := reads_readNamed_constructor (ρ := ρ) h
  obtain hstart | htext | htext := exists_start_of_isConstructor h
  · exact readsAtom_of_readNamed hread hstart
  · rw [htext] at hread ⊢
    intro depth _
    have hnone : ∀ w ∈ ["\x7b ", "`"], clash w.toList "()".toList := by decide
    refine ((hread.first.later fun rest _ => ?_).later fun rest _ => ?_).later fun rest _ => ?_
    · exact after_of_expect (expect_of_clash (hnone "`" (by decide)) rest)
    · exact after_of_expect (expect_of_clash (hnone "\x7b " (by decide)) rest)
    · exact (after_append "(" (')' :: rest)).trans (andThen_of_none (read_paren depth rest) _)
  · rw [htext] at hread ⊢
    intro depth _
    have hnone : ∀ w ∈ ["(", "\x7b ", "`"], clash w.toList "[]".toList := by decide
    refine ((hread.first.later fun rest _ => ?_).later fun rest _ => ?_).later fun rest _ => ?_
    · exact after_of_expect (expect_of_clash (hnone "`" (by decide)) rest)
    · exact after_of_expect (expect_of_clash (hnone "\x7b " (by decide)) rest)
    · exact after_of_expect (expect_of_clash (hnone "(" (by decide)) rest)

/-- A tag by itself is read as an atom. -/
theorem readsAtom_tag {tag : String} (h : isName tag) :
    ReadsAtom ("`" ++ tag) (made (.variant tag none) : Pattern ρ) := by
  intro depth _
  have htag := ((reads_readName h).weaken fun _ => ends_isNameChar_of_isAtomPart).as
    fun tag => (made (.variant tag none) : Pattern ρ)
  exact ((htag.after "`").first.later_of_clash (by decide)).later_of_clash (by decide)

/-- Literals are atoms, except for negative numbers. -/
theorem readsAtom_constant {c : Constant} (h : c.isLegible) (hsign : c.isNegative = false) :
    ReadsAtom c.text (made (.constant c) : Pattern ρ) := by
  intro depth _ rest hrest
  rw [readAtom_of_noOpening (c.noOpening h hsign rest)]
  exact (((Constant.reads h hsign).weaken fun _ => ends_isNumberPart_of_isAtomPart).as _) rest hrest

/-- A negative number is no atom, and it is read as a number. -/
theorem readsPattern_constant {c : Constant} (h : c.isLegible) (hsign : c.isNegative) :
    ReadsPattern c.text (made (.constant c) : Pattern ρ) := by
  obtain ⟨hread, cs, hcs⟩ := Constant.reads_negative h hsign
  intro depth hdepth
  obtain ⟨depth, rfl⟩ : ∃ n, depth = n + 1 := ⟨depth - 1, by omega⟩
  have hnumber := (hread.weaken fun _ hrest =>
    ends_isNumberPart_of_isAtomPart (Closing.ends hrest)).as
      fun c => (made (.constant c) : Pattern ρ)
  refine hnumber.first.later fun rest _ => andThen_of_none ?_ _
  rw [hcs]
  exact readAtom_of_vacant (vacant_of_sign rfl rfl (by decide) _) _

/-! ## forms in brackets -/

/-- A product is read part by part, up to the closing parenthesis. -/
theorem readsAtom_tuple {ts : List τ} {f : τ → String} {g : τ → Pattern ρ}
    (h : ∀ t ∈ ts, ReadsPattern (f t) (g t)) (hts : 2 ≤ ts.length) :
    ReadsAtom ("(" ++ joinWith ", " (ts.map f) ++ ")") (made (.tuple (ts.map g))) := by
  obtain ⟨t, rest, rfl, hrest, htext⟩ := joinWith_bracketed hts "(" ", " ")" f
  rw [htext]
  refine (h t List.mem_cons_self).group (fun depth hdepth => ?_) (stopsAt_append (by decide) _)
  have hread : ∀ u ∈ rest, (f u).length ≤ (joinWith ", " (rest.map f)).length →
      Reads (read depth) Closing (f u) (g u) := by
    intro u hu hle
    simp only [String.length_append] at hdepth
    exact h u (List.mem_cons_of_mem t hu) depth (by omega)
  have helements := Reads.sepBy_before hread hrest (by decide) (.lead (s := ", ") (by decide))
    (.lead (s := ")") (by decide)) (by decide) fun ps => made (.tuple (g t :: ps))
  exact (helements.after ", ").first.later_of_clash (by decide)

/-- A name for a pattern is read after it. -/
theorem readsAtom_aliased (h : ReadsPattern text p) {v : String} (hv : isLowerName v) :
    ReadsAtom ("(" ++ text ++ " as " ++ v ++ ")") (made (.aliased p (.generated v))) := by
  have htext : "(" ++ text ++ " as " ++ v ++ ")" = "(" ++ (text ++ (" as " ++ (v ++ ")"))) := by
    simp only [String.append_assoc]
  rw [htext]
  refine h.group (fun depth _ => ?_) (stopsAt_append (by decide) _)
  have hname := (((reads_readLower hv).as fun v => (made (.aliased p (.generated v)))).before
    (fun _ => rfl) : Reads _ _ (v ++ ")") _)
  exact (((hname.after " as ").first.later_of_clash (by decide)).later_of_clash
    (by decide)).later_of_clash (by decide)

/-- Alternatives are read on the two sides of the bar. -/
theorem readsAtom_either (hp : ReadsPattern text p) {text' : String} (hq : ReadsPattern text' q) :
    ReadsAtom ("(" ++ text ++ " | " ++ text' ++ ")") (made (.either p q)) := by
  have htext : "(" ++ text ++ " | " ++ text' ++ ")" =
      "(" ++ (text ++ (" | " ++ (text' ++ ")"))) := by
    simp only [String.append_assoc]
  rw [htext]
  refine hp.group (fun depth hdepth => ?_) (stopsAt_append (by decide) _)
  simp only [String.length_append] at hdepth
  have hright := ((hq depth (by omega)).as fun q => made (.either p q)).before
    (.lead (s := ")") (by decide))
  exact ((hright.after " | ").first.later_of_clash (by decide)).later_of_clash (by decide)

/-- A constraint is read as a pattern and a type. -/
theorem readsAtom_constraint (h : ReadsPattern text p) {text' : String} {t : TypeExpr ρ}
    (ht : TypeExpr.ReadsType text' t) :
    ReadsAtom ("(" ++ text ++ " : " ++ text' ++ ")") (made (.constraint p t)) := by
  have htext : "(" ++ text ++ " : " ++ text' ++ ")" =
      "(" ++ (text ++ (" : " ++ (text' ++ ")"))) := by
    simp only [String.append_assoc]
  rw [htext]
  refine h.group (fun depth hdepth => ?_) (stopsAt_append (by decide) _)
  have htype := (ht.readAny.as fun t => made (.constraint p t)).before
    (.lead (s := ")") (by decide))
  exact ((((htype.after " : ").first.later_of_clash (by decide)).later_of_clash
    (by decide)).later_of_clash (by decide)).later_of_clash (by decide)

/-- A field is read as a label and a pattern. -/
theorem reads_readField {label : QualName} (hlabel : label.isLabel) (h : ReadsPattern text p)
    {depth : Nat} (hdepth : text.length < depth) :
    Reads (readField (read depth)) Closing (label.text ++ " = " ++ text) (.generated label, p) := by
  rw [String.append_assoc]
  exact (reads_labelName hlabel).andThen (((h depth hdepth).as _).after " = ") fun rest _ => by
    rw [String.toList_append]
    rfl

/-- A record is read field by field. What stands after the last field says whether it leaves some
out. -/
theorem readsAtom_record {ts : List τ} {label : τ → QualName} {f : τ → String} {g : τ → Pattern ρ}
    (h : ∀ t ∈ ts, (label t).isLabel ∧ ReadsPattern (f t) (g t)) (hts : ts ≠ [])
    (openness : Openness) :
    ReadsAtom ("\x7b " ++ joinWith "; " (ts.map fun t => (label t).text ++ " = " ++ f t) ++
        openness.recordText ++ " \x7d")
      (made (.record (ts.map fun t => (.generated (label t), g t)) openness)) := by
  intro depth hdepth
  have hread : ∀ t ∈ ts, ((label t).text ++ " = " ++ f t).length ≤
      (joinWith "; " (ts.map fun t => (label t).text ++ " = " ++ f t)).length →
      Reads (readField (read depth)) Closing ((label t).text ++ " = " ++ f t)
        (.generated (label t), g t) := by
    intro t ht hle
    have heq : " = ".length = 3 := rfl
    simp only [String.length_append] at hdepth hle
    exact reads_readField (h t ht).1 (h t ht).2 (by omega)
  have hfields := Reads.sepBy hread hts (by decide) (.lead (s := "; ") (by decide))
  rw [String.append_assoc, String.append_assoc]
  have hrecord : Reads (readRecord (read depth)) (fun _ => True)
      (joinWith "; " (ts.map fun t => (label t).text ++ " = " ++ f t) ++
        (openness.recordText ++ " \x7d"))
      (made (.record (ts.map fun t => (.generated (label t), g t)) openness)) := by
    cases openness with
    | closed =>
        refine hfields.andThen (((reads_readNothing _).after " \x7d").first) fun rest _ => ⟨?_, ?_⟩
        · exact .lead (s := " \x7d") (by decide) rest
        · exact after_of_expect (expect_of_clash (l := " \x7d") (by decide) rest)
    | extensible =>
        refine hfields.andThen
          (((reads_readNothing _).after "; _ \x7d").first.later_of_clash (by decide))
          fun rest _ => ⟨?_, ?_⟩
        · exact .lead (s := "; ") (by decide) ('_' :: ' ' :: '\x7d' :: rest)
        · refine (after_append "; " ('_' :: ' ' :: '\x7d' :: rest)).trans (andThen_of_none ?_ _)
          have hname : readName ("_".toList ++ ' ' :: '\x7d' :: rest) = none :=
            readName_of_reserved (by decide) rfl
          exact readQualified_of_readName hname (readLower_of_none hname)
  exact ((hrecord.after "\x7b ").first.later_of_clash (by decide)).weaken fun _ _ => trivial

/-! ## forms that go on after an atom -/

/-- A constructor or a tag is read with the argument that follows it. -/
theorem ReadsAtom.attached {first : String} {attach : Pattern ρ → Pattern ρ}
    (hp : ReadsAtom first p) (hattach : p.attach? = some attach) (hq : ReadsAtom text q) :
    ReadsPattern (first ++ (" " ++ text)) (attach q) := by
  intro depth hdepth
  obtain ⟨depth, rfl⟩ : ∃ n, depth = n + 1 := ⟨depth - 1, by omega⟩
  simp only [String.length_append] at hdepth
  have harg : Reads (readAs attach (after " " (readAtom (read depth)))) (Ends isAtomPart)
      (" " ++ text) (attach q) := ((hq depth (by omega)).after " ").as attach
  have hrest : Reads (readRest (read depth) p) Closing (" " ++ text) (attach q) :=
    Reads.first fun rest hrest => by
      rw [hattach, Option.bind_some, harg rest (Closing.ends hrest)]
  exact ((hp depth (by omega)).andThen hrest fun rest _ => by
    rw [String.toList_append]
    rfl).first

/-- The argument of a constructor is read after it. -/
theorem readsPattern_construct (h : name.isConstructor) (hp : ReadsAtom text p) :
    ReadsPattern (name.text ++ (" " ++ text)) (made (.construct (.generated name) (some p))) :=
  (readsAtom_constructor h).attached rfl hp

/-- The argument of a tag is read after it. -/
theorem readsPattern_variant {tag : String} (h : isName tag) (hp : ReadsAtom text p) :
    ReadsPattern ("`" ++ tag ++ (" " ++ text)) (made (.variant tag (some p))) :=
  (readsAtom_tag h).attached rfl hp

/-- A head and a tail are read on the two sides of the sign. -/
theorem readsPattern_cons {first : String} (hp : ReadsAtom first p) (hq : ReadsPattern text q) :
    ReadsPattern (first ++ (" :: " ++ text)) (consed p q) := by
  intro depth hdepth
  obtain ⟨depth, rfl⟩ : ∃ n, depth = n + 1 := ⟨depth - 1, by omega⟩
  have hsign : " :: ".length = 4 := rfl
  simp only [String.length_append] at hdepth
  have htail := (((hq depth (by omega)).as (consed p)).after " :: ")
  have hrest : Reads (readRest (read depth) p) Closing (" :: " ++ text) (consed p q) := by
    refine htail.first.later fun rest _ => Option.bind_eq_none_iff.2 fun attach _ =>
      readAs_of_none ?_ attach
    rw [String.toList_append, List.append_assoc]
    have hsign : Vacant (':' :: ':' :: ' ' :: (text.toList ++ rest)) :=
      vacant_of_sign rfl rfl (by decide) _
    exact (after_append " " _).trans (readAtom_of_vacant hsign _)
  exact ((hp depth (by omega)).andThen hrest fun rest _ => by
    rw [String.toList_append]
    rfl).first

end Pattern

/-! ## all patterns -/

/-- A legible pattern has no attributes. -/
theorem Pattern.isEmpty_of_isLegible {p : Pattern Payload} (h : p.isLegible) :
    p.attributes.isEmpty := by
  obtain ⟨shape, span, attributes⟩ := p
  rw [isLegible, Bool.and_eq_true] at h
  exact h.1

/-- A head and a tail are written with an infix sign. -/
theorem Pattern.render_cons {name : Located QualName} (h : name.value.isCons)
    (a b : Pattern Payload) (span : Span) :
    PatternShape.render Payload.text false (.construct name (some ⟨.tuple [a, b], span, []⟩)) =
      a.render Payload.text true ++ (" :: " ++ b.render Payload.text false) := by
  simp only [PatternShape.render, h, renderCons?, String.append_assoc]
  rfl

mutual

/-- The text of a pattern is read back, whether or not something stands directly before it. -/
theorem Pattern.readsAt : ∀ p : Pattern Payload, p.isLegible → ∀ nested,
    Pattern.ReadsAt nested (p.render Payload.text nested) (p.erase .places)
  | ⟨shape, _, []⟩, h, nested => PatternShape.readsAt shape h nested
  | ⟨_, _, _ :: _⟩, h, _ => absurd h Bool.false_ne_true

/-- **Each form is read as itself in any position**, by recursion on the tree along with the
printer. -/
theorem PatternShape.readsAt : ∀ shape : PatternShape Payload, shape.isLegible → ∀ nested,
    Pattern.ReadsAt nested (shape.render Payload.text nested)
      (Pattern.made (shape.erase .places))
  | .any, _, nested => Pattern.readsAtom_any.at nested
  | .var name, h, nested => (Pattern.readsAtom_var h).at nested
  | .aliased p name, h, nested => by
      rw [PatternShape.isLegible, Bool.and_eq_true] at h
      exact (Pattern.readsAtom_aliased (Pattern.readsAt p h.2 false) h.1).at nested
  | .constant value, h, nested => by
      cases hsign : value.isNegative with
      | false =>
          have hread := (Pattern.readsAtom_constant (ρ := Payload) h hsign).at nested
          rwa [PatternShape.render, hsign, Bool.and_false]
      | true =>
          have hread := (Pattern.readsPattern_constant (ρ := Payload) h hsign).at nested
          rwa [PatternShape.render, hsign, Bool.and_true]
  | .tuple elements, h, nested => by
      rw [PatternShape.isLegible, Bool.and_eq_true, decide_eq_true_eq] at h
      have helements := Pattern.readsAll elements h.2
      simp only [PatternShape.render, PatternShape.erase, Pattern.renderAll_eq_map,
        Pattern.eraseAll_eq_map]
      exact (Pattern.readsAtom_tuple helements h.1).at nested
  | .construct name none, h, nested => (Pattern.readsAtom_constructor h).at nested
  | .construct name (some arg), h, nested => by
      rw [PatternShape.isLegible, Bool.and_eq_true] at h
      obtain ⟨hname, harg⟩ := h
      rw [PatternShape.render_eq_parens]
      refine Pattern.ReadsPattern.at ?_ nested
      cases hcons : name.value.isCons && arg.isPair with
      | false =>
          rw [hcons, Bool.or_false] at hname
          rw [Pattern.render_construct hcons]
          exact Pattern.readsPattern_construct hname (Pattern.readsAt arg harg true)
      | true =>
          rw [Bool.and_eq_true] at hcons
          obtain ⟨a, b, span, rfl⟩ :=
            Pattern.exists_of_isPair hcons.2 (Pattern.isEmpty_of_isLegible harg)
          simp only [Pattern.isLegible, PatternShape.isLegible, Pattern.allLegible,
            Bool.and_eq_true] at harg
          have hread := Pattern.readsPattern_cons (Pattern.readsAt a harg.2.2.1 true)
            (Pattern.readsAt b harg.2.2.2.1 false)
          rw [Pattern.render_cons hcons.1]
          rw [PatternShape.erase, Located.erase, QualName.isCons_iff.1 hcons.1]
          exact hread
  | .variant tag none, h, nested => (Pattern.readsAtom_tag h).at nested
  | .variant tag (some arg), h, nested => by
      rw [PatternShape.isLegible, Bool.and_eq_true] at h
      have hread := Pattern.readsPattern_variant h.1 (Pattern.readsAt arg h.2 true)
      rw [← String.append_assoc] at hread
      exact hread.at nested
  | .record fields openness, h, nested => by
      rw [PatternShape.isLegible, Bool.and_eq_true, Bool.not_eq_true',
        List.isEmpty_eq_false_iff] at h
      have hfields := Pattern.readsFields fields h.2
      simp only [PatternShape.render, PatternShape.erase, Pattern.renderFields_eq_map,
        Pattern.eraseFields_eq_map]
      exact (Pattern.readsAtom_record hfields h.1 openness).at nested
  | .either left right, h, nested => by
      rw [PatternShape.isLegible, Bool.and_eq_true] at h
      exact (Pattern.readsAtom_either (Pattern.readsAt left h.1 false)
        (Pattern.readsAt right h.2 false)).at nested
  | .constraint p type, h, nested => by
      rw [PatternShape.isLegible, Bool.and_eq_true] at h
      exact (Pattern.readsAtom_constraint (Pattern.readsAt p h.1 false)
        (TypeExpr.readsAt Payload.text .places type h.2 .top)).at nested

/-- The parts of a product are read between commas. -/
theorem Pattern.readsAll : ∀ ps : List (Pattern Payload), Pattern.allLegible ps → ∀ p ∈ ps,
    Pattern.ReadsPattern (p.render Payload.text false) (p.erase .places)
  | [], _ => by simp
  | p :: rest, h => by
      rw [Pattern.allLegible, Bool.and_eq_true] at h
      exact List.forall_mem_cons.2 ⟨Pattern.readsAt p h.1 false, Pattern.readsAll rest h.2⟩

/-- The fields of a record are read between semicolons, and their labels are names of fields. -/
theorem Pattern.readsFields : ∀ fields : List (Located QualName × Pattern Payload),
    Pattern.fieldsLegible fields → ∀ f ∈ fields, f.1.value.isLabel ∧
      Pattern.ReadsPattern (f.2.render Payload.text false) (f.2.erase .places)
  | [], _ => by simp
  | (_, p) :: rest, h => by
      simp only [Pattern.fieldsLegible, Bool.and_eq_true] at h
      exact List.forall_mem_cons.2 ⟨⟨h.1.1, Pattern.readsAt p h.1.2 false⟩,
        Pattern.readsFields rest h.2⟩

end

end DeriveKit
