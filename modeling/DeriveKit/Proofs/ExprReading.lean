import DeriveKit.Proofs.PatternText
import DeriveKit.Proofs.ReadExpr

/-!
# DeriveKit.Proofs.ExprReading

What is read off the text of each form of expression, given that the texts of its parts are read.
The forms come in three kinds: those that nothing takes apart (`ReadsHead`, `ReadsAtom`), those that
may stand between separators (`ReadsElement`), and those that reach as far as they can (`ReadsTop`).
The printer puts the last two in parentheses where they would be taken apart or reach too far, so
all of them are read in any position (`ReadsIn`).
-/

namespace DeriveKit

namespace Expr

variable {ρ τ : Type} {text text' : String} {e e' : Expr ρ} {name : QualName} {cs : List Char}

/-! ## where no expression begins -/

/-- No sequence is read where nothing stands. -/
theorem readSequence_of_vacant (h : Vacant cs) (hnumber : readNumber cs = none)
    (inner : Readers ρ) : readSequence inner cs = none :=
  andThen_of_none (readElement_of_vacant h hnumber inner) _

/-- No expression begins with a sign other than the opening ones. -/
theorem read_of_sign {c : Char} (hname : isNameStart c = false) (hdigit : c.isDigit = false)
    (hc : c ∉ ['(', '[', '`', '\x7b', '"', '\x27']) (hnumber : readNumber (c :: cs) = none)
    (depth : Nat) :
    (read (ρ := ρ) depth).top (c :: cs) = none ∧
    (read (ρ := ρ) depth).element (c :: cs) = none := by
  have hvacant : Vacant (c :: cs) := vacant_of_sign hname hdigit hc cs
  have hword : ∀ w : String, w.toList.head?.any isNameStart → expect w (c :: cs) = none := by
    intro w hw
    rw [Option.any_eq_true] at hw
    obtain ⟨d, hd, hstart⟩ := hw
    refine expect_of_ne ?_
    rw [hd, Option.any_some, bne_iff_ne]
    rintro rfl
    rw [hname] at hstart
    exact Bool.false_ne_true hstart
  cases depth with
  | zero => exact ⟨rfl, rfl⟩
  | succ depth =>
      refine ⟨?_, readElement_of_vacant hvacant hnumber _⟩
      show readTop (read depth) (c :: cs) = none
      rw [readTop, firstOf_cons_of_none (readSequence_of_vacant hvacant hnumber _),
        firstOf_cons_of_none (after_of_expect (hword "let " rfl)),
        firstOf_cons_of_none (after_of_expect (hword "fun " rfl)),
        firstOf_cons_of_none (after_of_expect (hword "function" rfl)),
        firstOf_cons_of_none (after_of_expect (hword "match " rfl)),
        firstOf_cons_of_none (after_of_expect (hword "if " rfl)), firstOf_nil]

/-! ## positions -/

/-- An expression is read as `e` in every position, where it is written as `text` says, and as
something that can be applied or have a field if `head` says so. -/
structure ReadsIn (text : ExprPosition → String) (head : Bool) (e : Expr ρ) : Prop where
  at_position : ∀ position, ReadsAt position (text position) e
  as_head : head → ReadsHead (text .atom) e

namespace ReadsIn

variable {text : ExprPosition → String} {head : Bool}

/-- `ReadsIn` at the top: the expression reaches as far as it can. -/
theorem top (h : ReadsIn text head e) : ReadsTop (text .top) e := h.at_position .top

/-- `ReadsIn` between separators. -/
theorem element (h : ReadsIn text head e) : ReadsElement (text .element) e := h.at_position .element

/-- `ReadsIn` where nothing may take the expression apart. -/
theorem atom (h : ReadsIn text head e) : ReadsAtom (text .atom) e := h.at_position .atom

end ReadsIn

/-- An atom is written alike in all positions. -/
theorem ReadsAtom.at (h : ReadsAtom text e)
    (position : ExprPosition) : ReadsAt position text e := by
  cases position with
  | top => exact h.element.body.top
  | element => exact h.element
  | operand | atom => exact h

/-- An atom is read in any position. -/
theorem ReadsAtom.anywhere (h : ReadsAtom text e) : ReadsIn (fun _ => text) false e :=
  ⟨h.at, nofun⟩

/-- What can be applied is an atom, so it is read in any position. -/
theorem ReadsHead.anywhere (h : ReadsHead text e) (head : Bool) : ReadsIn (fun _ => text) head e :=
  ⟨h.atom.at, fun _ => h⟩

/-- What is read in parentheses: an expression, and what makes it part of another one. -/
theorem readsPrimary_group {stops : List Char → Prop} {tail : String}
    (h : ∀ depth, text.length < depth → Reads (read depth).top stops text e)
    (hgroup : ∀ depth, tail.length < depth →
      Reads (readGroup (read depth) e) (fun _ => True) tail e')
    (hstops : ∀ cs, stops (tail.toList ++ cs)) : ReadsPrimary ("(" ++ (text ++ tail)) e' := by
  intro depth hdepth
  have hparen : "(".length = 1 := rfl
  rw [String.length_append, String.length_append] at hdepth
  have hread := (h depth (by omega)).andThen (hgroup depth (by omega)) fun cs _ => hstops cs
  exact (hread.after "(").first.weaken fun _ _ => trivial

/-- Any expression can be applied once it stands in parentheses. -/
theorem ReadsTop.parens (h : ReadsTop text e) : ReadsPrimary ("(" ++ text ++ ")") e := by
  rw [String.append_assoc]
  refine readsPrimary_group h (fun depth _ => ?_) (.lead (by decide))
  have hgroup : Reads (readGroup (read depth) e) (fun _ => True) (")" ++ "") e :=
    ((reads_readNothing e).after ")").first
  exact hgroup

/-- An element is read in any position if it has parentheses where it would be taken apart. -/
theorem ReadsElement.anywhere (h : ReadsElement text e) (head : Bool) :
    ReadsIn (fun position => DeriveKit.parens position.splitsApply text) head e where
  at_position position := by
    cases position with
    | top => exact h.body.top
    | element => exact h
    | operand | atom => exact h.body.top.parens.head.atom
  as_head _ := h.body.top.parens.head

/-- An expression that reaches far is read in any position if it has parentheses wherever something
follows. -/
theorem ReadsTop.anywhere (h : ReadsTop text e) (head : Bool) :
    ReadsIn (fun position => DeriveKit.parens position.isNested text) head e where
  at_position position := by
    cases position with
    | top => exact h
    | element => exact h.parens.head.atom.element
    | operand | atom => exact h.parens.head.atom
  as_head _ := h.parens.head

/-! ## words -/

/-- A name is read as one, as no other form of expression begins so. -/
theorem reads_readPrimary_of_readNamed {stops : List Char → Prop} (h : Reads readNamed stops text e)
    (hstart : ∃ c cs, text.toList = c :: cs ∧ isNameStart c) (inner : Readers ρ) :
    Reads (readPrimary inner) stops text e :=
  (((h.first.later_of_isNameStart hstart (by decide)).later_of_isNameStart hstart
    (by decide)).later_of_isNameStart hstart (by decide)).later_of_isNameStart hstart (by decide)

/-- Names of values are read as identifiers. -/
theorem readsHead_ident (h : name.isValue) :
    ReadsHead name.text (made (.ident (.generated name)) : Expr ρ) := by
  refine ReadsPrimary.head fun depth _ => ?_
  have hname : Reads readNamed (Ends isNameChar) name.text
      (made (.ident (.generated name)) : Expr ρ) := ((reads_valueName h).as _).first
  obtain hstart | ⟨s, htext⟩ := exists_start_of_isValue h
  · exact reads_readPrimary_of_readNamed hname hstart _
  · -- An operator begins with a parenthesis, but no expression begins with the space after it.
    rw [htext] at hname ⊢
    have hclash : ∀ w ∈ ["[", "\x7b ", "`"], clash w.toList "( ".toList := by decide
    refine (((hname.first.later_of_clash (hclash "`" (by decide))).later_of_clash
      (hclash "\x7b " (by decide))).later_of_clash (hclash "[" (by decide))).later fun rest _ => ?_
    have htop : (read (ρ := ρ) depth).top (' ' :: (s.toList ++ rest)) = none :=
      (read_of_sign rfl rfl (by decide) rfl depth).1
    have hopen : ("( " ++ s).toList ++ rest = "(".toList ++ (' ' :: (s.toList ++ rest)) := by simp
    rw [hopen, after_append, andThen_of_none htop]

/-- Constructors are read as such. They are no heads: what follows is taken for an argument of
theirs. -/
theorem readsAtom_constructor (h : name.isConstructor) :
    ReadsAtom name.text (made (.construct (.generated name) none) : Expr ρ) := by
  refine readsAtom_of_primary fun depth _ => ?_
  have hread : Reads readNamed (Ends isAtomPart) name.text
      (made (.construct (.generated name) none) : Expr ρ) := by
    have hname := (reads_constructorName h).weaken fun _ => ends_isPathChar_of_isAtomPart
    refine ((hname.as _).first).later fun rest hrest => readAs_of_none ?_ _
    exact readValueName_of_isConstructor h (ends_isPathChar_of_isAtomPart hrest)
  obtain hstart | htext | htext := exists_start_of_isConstructor h
  · exact reads_readPrimary_of_readNamed hread hstart _
  · rw [htext] at hread ⊢
    have hclash : ∀ w ∈ ["[", "\x7b ", "`"], clash w.toList "()".toList := by decide
    refine (((hread.first.later fun rest _ => ?_).later fun rest _ => ?_).later
      fun rest _ => ?_).later fun rest _ => ?_
    · exact after_of_expect (expect_of_clash (hclash "`" (by decide)) rest)
    · exact after_of_expect (expect_of_clash (hclash "\x7b " (by decide)) rest)
    · exact after_of_expect (expect_of_clash (hclash "[" (by decide)) rest)
    · have htop : (read (ρ := ρ) depth).top (')' :: rest) = none :=
        (read_of_sign rfl rfl (by decide) rfl depth).1
      exact (after_append "(" (')' :: rest)).trans (andThen_of_none htop _)
  · rw [htext] at hread ⊢
    have hclash : ∀ w ∈ ["(", "\x7b ", "`"], clash w.toList "[]".toList := by decide
    refine (((hread.first.later fun rest _ => ?_).later fun rest _ => ?_).later
      fun rest _ => ?_).later fun rest _ => ?_
    · exact after_of_expect (expect_of_clash (hclash "`" (by decide)) rest)
    · exact after_of_expect (expect_of_clash (hclash "\x7b " (by decide)) rest)
    · have helement : (read (ρ := ρ) depth).element (']' :: rest) = none :=
        (read_of_sign rfl rfl (by decide) rfl depth).2
      exact (after_append "[" (']' :: rest)).trans
        (before_of_none (readAs_of_none (sepBy_of_none helement _) _) _)
    · exact after_of_expect (expect_of_clash (hclash "(" (by decide)) rest)

/-- Tags are read as such. -/
theorem readsAtom_tag {tag : String} (h : isName tag) :
    ReadsAtom ("`" ++ tag) (made (.variant tag none) : Expr ρ) := by
  refine readsAtom_of_primary fun depth _ => ?_
  have htag := ((reads_readName h).weaken fun _ => ends_isNameChar_of_isAtomPart).as
    fun tag => (made (.variant tag none) : Expr ρ)
  exact (((htag.after "`").first.later_of_clash (by decide)).later_of_clash
    (by decide)).later_of_clash (by decide)

/-- Literals are read as such, except for negative numbers, which are elements only. -/
theorem readsAtom_constant {c : Constant} (h : c.isLegible) (hsign : c.isNegative = false) :
    ReadsAtom c.text (made (.constant c) : Expr ρ) := by
  refine readsAtom_of_primary fun depth _ rest hrest => ?_
  rw [readPrimary_of_noOpening (c.noOpening h hsign rest)]
  exact (((Constant.reads h hsign).weaken fun _ => ends_isNumberPart_of_isAtomPart).as _) rest hrest

/-- A string or a character has an end of its own. -/
theorem readsHead_constant {c : Constant} (h : c.isLegible) (hnumber : c.isNumber = false) :
    ReadsHead c.text (made (.constant c) : Expr ρ) := by
  have hsign : c.isNegative = false := by
    cases c with
    | integer | float => exact absurd hnumber nofun
    | char | string => rfl
  refine ReadsPrimary.head fun depth _ rest _ => ?_
  rw [readPrimary_of_noOpening (c.noOpening h hsign rest)]
  exact ((Constant.reads_quoted h hnumber).as _) rest trivial

/-- A negative number is no atom, and it is read as a number. -/
theorem readsElement_constant {c : Constant} (h : c.isLegible) (hsign : c.isNegative) :
    ReadsElement c.text (made (.constant c) : Expr ρ) := by
  obtain ⟨hread, ds, hds⟩ := Constant.reads_negative h hsign
  intro depth hdepth
  obtain ⟨depth, rfl⟩ : ∃ n, depth = n + 1 := ⟨depth - 1, by omega⟩
  have hnumber := (hread.weaken fun _ hrest =>
    ends_isNumberPart_of_isAtomPart (ElementClosing.ends hrest)).as
      fun c => (made (.constant c) : Expr ρ)
  refine hnumber.first.later fun rest _ => andThen_of_none ?_ _
  rw [hds]
  exact readAtom_of_vacant (vacant_of_sign rfl rfl (by decide) _) _

/-! ## forms in brackets -/

section

variable {ts : List τ} {f : τ → String} {g : τ → Expr ρ}

/-- A product is read part by part, up to the closing parenthesis. -/
theorem readsHead_tuple (h : ∀ t ∈ ts, ReadsElement (f t) (g t)) (hts : 2 ≤ ts.length) :
    ReadsHead ("(" ++ joinWith ", " (ts.map f) ++ ")") (made (.tuple (ts.map g))) := by
  obtain ⟨t, rest, rfl, hrest, htext⟩ := joinWith_bracketed hts "(" ", " ")" f
  rw [htext]
  refine (readsPrimary_group (h t List.mem_cons_self).body (fun depth hdepth => ?_)
    (stopsAt_append (by decide) _)).head
  have hread : ∀ u ∈ rest, (f u).length ≤ (joinWith ", " (rest.map f)).length →
      Reads (read depth).element ElementClosing (f u) (g u) := by
    intro u hu hle
    simp only [String.length_append] at hdepth
    exact h u (List.mem_cons_of_mem t hu) depth (by omega)
  have helements := Reads.sepBy_before hread hrest (by decide) (.lead (s := ", ") (by decide))
    (.lead (s := ")") (by decide)) (by decide) fun es => made (.tuple (g t :: es))
  exact (helements.after ", ").first.later_of_clash (by decide)

/-- A list literal is read element by element. -/
theorem readsHead_listed (h : ∀ t ∈ ts, ReadsElement (f t) (g t)) (hts : ts ≠ []) :
    ReadsHead ("[" ++ (joinWith "; " (ts.map f) ++ "]")) (listed (ts.map g)) := by
  refine ReadsPrimary.head fun depth hdepth => ?_
  have hread : ∀ t ∈ ts, (f t).length ≤ (joinWith "; " (ts.map f)).length →
      Reads (read depth).element ElementClosing (f t) (g t) := by
    intro t ht hle
    have hbracket : "[".length = 1 := rfl
    simp only [String.length_append] at hdepth
    exact h t ht depth (by omega)
  have helements := Reads.sepBy_before hread hts (by decide) (.lead (s := "; ") (by decide))
    (.lead (s := "]") (by decide)) (by decide) listed
  exact ((helements.after "[").first.later_of_clash (by decide)).weaken fun _ _ => trivial

end

/-- A constraint is read as an expression and a type. -/
theorem readsHead_constraint (h : ReadsTop text e) {t : TypeExpr ρ}
    (ht : TypeExpr.ReadsType text' t) :
    ReadsHead ("(" ++ text ++ " : " ++ text' ++ ")") (made (.constraint e t)) := by
  have htext : "(" ++ text ++ " : " ++ text' ++ ")" =
      "(" ++ (text ++ (" : " ++ (text' ++ ")"))) := by
    simp only [String.append_assoc]
  rw [htext]
  refine (readsPrimary_group h (fun depth _ => ?_) (stopsAt_append (by decide) _)).head
  have htype := (ht.readAny.as fun t => made (.constraint e t)).before
    (.lead (s := ")") (by decide))
  exact ((htype.after " : ").first.later_of_clash (by decide)).later_of_clash (by decide)

/-! ### records -/

/-- A field is read as a label and an element. -/
theorem reads_readField {label : QualName} (hlabel : label.isLabel) (h : ReadsElement text e)
    {depth : Nat} (hdepth : text.length < depth) :
    Reads (readField (read depth)) ElementClosing (label.text ++ " = " ++ text)
      (.generated label, e) := by
  rw [String.append_assoc]
  exact (reads_labelName hlabel).andThen (((h depth hdepth).as _).after " = ") fun rest _ => by
    rw [String.toList_append]
    rfl

/-- The label of a field is read as an identifier, and nothing makes it the base of a record. -/
theorem readBase_of_label {label : QualName} (hlabel : label.isLabel) {depth : Nat}
    (hdepth : label.text.length < depth) (next : Expr ρ → Reader (Expr ρ)) :
    andThen (read depth).element (fun base => after " with " (next base))
      (label.text.toList ++ (" = ".toList ++ cs)) = none := by
  have hvalue : label.isValue := by
    rw [QualName.isLabel, Bool.and_eq_true] at hlabel
    rw [QualName.isValue, hlabel.1, hlabel.2]
    rfl
  have hread := (readsHead_ident (ρ := ρ) hvalue).atom.element depth hdepth (" = ".toList ++ cs)
    (.lead (by decide) cs)
  have hwith : expect " with " (" = ".toList ++ cs) = none := expect_of_clash (by decide) cs
  rw [andThen, hread, Option.bind_eq_bind, Option.bind_some]
  exact after_of_expect hwith

section

variable {ts : List τ} {label : τ → QualName} {f : τ → String} {g : τ → Expr ρ} {depth : Nat}

/-- Fields are read one by one, up to the closing brace. -/
theorem reads_readFields (h : ∀ t ∈ ts, (label t).isLabel ∧ ReadsElement (f t) (g t))
    (hts : ts ≠ [])
    (hdepth : (joinWith "; " (ts.map fun t => (label t).text ++ " = " ++ f t)).length ≤ depth)
    (base : Option (Expr ρ)) :
    Reads (readFields (read depth) base) (fun _ => True)
      (joinWith "; " (ts.map fun t => (label t).text ++ " = " ++ f t) ++ " \x7d")
      (made (.record (ts.map fun t => (.generated (label t), g t)) base)) := by
  have hread : ∀ t ∈ ts, ((label t).text ++ " = " ++ f t).length ≤
      (joinWith "; " (ts.map fun t => (label t).text ++ " = " ++ f t)).length →
      Reads (readField (read depth)) ElementClosing ((label t).text ++ " = " ++ f t)
        (.generated (label t), g t) := by
    intro t ht hle
    have heq : " = ".length = 3 := rfl
    simp only [String.length_append] at hle
    exact reads_readField (h t ht).1 (h t ht).2 (by omega)
  exact Reads.sepBy_before hread hts (by decide) (.lead (s := "; ") (by decide))
    (.lead (s := " \x7d") (by decide)) (by decide) fun fields => made (.record fields base)

/-- A record is read if what stands after its opening brace is. -/
theorem readsHead_braced (h : ∀ depth, text.length ≤ depth →
    Reads (readRecord (read depth)) (fun _ => True) text e) : ReadsHead ("\x7b " ++ text) e := by
  refine ReadsPrimary.head fun depth hdepth => ?_
  rw [String.length_append] at hdepth
  have hrecord := (h depth (by omega)).after "\x7b "
  exact ((hrecord.first.later_of_clash (by decide)).later_of_clash (by decide)).weaken
    fun _ _ => trivial

/-- A record is read field by field. It has some: without one it would be written as no record
is. -/
theorem readsHead_record (h : ∀ t ∈ ts, (label t).isLabel ∧ ReadsElement (f t) (g t))
    (hts : ts ≠ []) :
    ReadsHead ("\x7b " ++ joinWith "; " (ts.map fun t => (label t).text ++ " = " ++ f t) ++ " \x7d")
      (made (.record (ts.map fun t => (.generated (label t), g t)) none)) := by
  rw [String.append_assoc]
  refine readsHead_braced fun depth hdepth => ?_
  rw [String.length_append] at hdepth
  refine (reads_readFields h hts (by omega) none).first.later fun rest _ => ?_
  obtain ⟨t, ts, rfl⟩ := List.exists_cons_of_ne_nil hts
  have hlength : (label t).text.length < depth := by
    have heq : " = ".length = 3 := rfl
    simp only [List.map_cons, joinWith_cons, String.length_append] at hdepth
    omega
  have htext : ∀ s : List Char,
      (joinWith "; " ((t :: ts).map fun t => (label t).text ++ " = " ++ f t) ++
      " \x7d").toList ++ s =
        (label t).text.toList ++ (" = ".toList ++ ((f t).toList ++ ((leadEach "; "
          (ts.map fun t => (label t).text ++ " = " ++ f t)).toList ++ (" \x7d".toList ++ s)))) := by
    simp [joinWith_cons]
  rw [htext]
  exact readBase_of_label (h t List.mem_cons_self).1 hlength _

/-- A record with a base is read as such, because no field has `with` after its label. -/
theorem readsHead_extended (he : ReadsAtom text e)
    (h : ∀ t ∈ ts, (label t).isLabel ∧ ReadsElement (f t) (g t)) (hts : ts ≠ []) :
    ReadsHead ("\x7b " ++ text ++ " with " ++
        joinWith "; " (ts.map fun t => (label t).text ++ " = " ++ f t) ++ " \x7d")
      (made (.record (ts.map fun t => (.generated (label t), g t)) (some e))) := by
  have htext : "\x7b " ++ text ++ " with " ++
        joinWith "; " (ts.map fun t => (label t).text ++ " = " ++ f t) ++ " \x7d" =
      "\x7b " ++ (text ++ (" with " ++
        (joinWith "; " (ts.map fun t => (label t).text ++ " = " ++ f t) ++ " \x7d"))) := by
    simp only [String.append_assoc]
  rw [htext]
  refine readsHead_braced fun depth hdepth => ?_
  have hwith : " with ".length = 6 := rfl
  simp only [String.length_append] at hdepth
  have hlength : (joinWith "; " (ts.map fun t => (label t).text ++ " = " ++ f t)).length ≤
    depth := by
    omega
  have hfields := (reads_readFields h hts hlength (some e)).after " with "
  exact ((he.element depth (by omega)).andThen hfields fun rest _ =>
    stopsAt_append (by decide) _ rest).first

end

/-! ## forms that go on after an atom -/

/-- Nothing is read as an argument where the sign between a head and a tail stands. -/
theorem vacant_cons (cs : List Char) : Vacant (':' :: ':' :: ' ' :: cs) :=
  vacant_of_sign rfl rfl (by decide) _

/-- A constructor or a tag is read with the argument that follows it. -/
theorem ReadsAtom.attached {first : String} {attach : Expr ρ → Expr ρ} (he : ReadsAtom first e)
    (hattach : e.attach? = some attach) (h : ReadsAtom text e') :
    ReadsElement (first ++ " " ++ text) (attach e') := by
  intro depth hdepth
  obtain ⟨depth, rfl⟩ : ∃ n, depth = n + 1 := ⟨depth - 1, by omega⟩
  rw [String.append_assoc] at hdepth ⊢
  simp only [String.length_append] at hdepth
  have harg : Reads (readAs attach (after " " (readAtom (read depth)))) (Ends isAtomPart)
      (" " ++ text) (attach e') := ((h depth (by omega)).after " ").as attach
  have hrest : Reads (readRest (read depth) e) ElementClosing (" " ++ text) (attach e') :=
    Reads.first fun rest hrest => by
      rw [hattach, Option.bind_some, harg rest (ElementClosing.ends hrest)]
  exact ((he depth (by omega)).andThen hrest fun rest _ => by
    rw [String.toList_append]
    rfl).first

/-- The argument of a constructor is read after it. -/
theorem readsElement_construct (h : name.isConstructor) (he : ReadsAtom text e) :
    ReadsElement (name.text ++ " " ++ text) (made (.construct (.generated name) (some e))) :=
  (readsAtom_constructor h).attached rfl he

/-- And so is that of a tag. -/
theorem readsElement_variant {tag : String} (h : isName tag) (he : ReadsAtom text e) :
    ReadsElement ("`" ++ tag ++ " " ++ text) (made (.variant tag (some e))) :=
  (readsAtom_tag h).attached rfl he

/-- A head and a tail are read on the two sides of the sign. -/
theorem readsElement_cons (he : ReadsAtom text e) (h : ReadsElement text' e') :
    ReadsElement (text ++ (" :: " ++ text')) (consed e e') := by
  intro depth hdepth
  obtain ⟨depth, rfl⟩ : ∃ n, depth = n + 1 := ⟨depth - 1, by omega⟩
  have hsign : " :: ".length = 4 := rfl
  simp only [String.length_append] at hdepth
  have hspace : ∀ rest : List Char, (" :: " ++ text').toList ++ rest =
      " ".toList ++ (':' :: ':' :: ' ' :: (text'.toList ++ rest)) := by
    simp
  have htail := ((h depth (by omega)).as (consed e)).after " :: "
  have hrest : Reads (readRest (read depth) e) ElementClosing (" :: " ++ text') (consed e e') := by
    refine (htail.first.later fun rest _ => readAs_of_none ?_ _).later fun rest _ =>
      Option.bind_eq_none_iff.2 fun attach _ => readAs_of_none ?_ attach
    · rw [hspace, after_append]
      exact sepBy_of_none (readArg_of_vacant (vacant_cons _)
        ⟨expect_of_ne rfl, expect_of_ne rfl⟩ _) _
    · rw [hspace, after_append]
      exact readAtom_of_vacant (vacant_cons _) _
  exact ((he depth (by omega)).andThen hrest fun rest _ => by
    rw [String.toList_append]
    rfl).first

/-! ### applications -/

/-- No atom begins with the sign of a label. -/
theorem ReadsAtom.unlabelled (h : ReadsAtom text e) (rest : List Char)
    (hrest : Ends isAtomPart rest) :
    Unlabelled (text.toList ++ rest) := by
  have hread := h text.length (Nat.le_refl _) rest hrest
  exact unlabelled_of_read (by rw [hread]; exact nofun) fun _ hcs => readAtom_of_vacant hcs _

/-- The label of an argument is read; an argument without one must not look like one that has a
label. -/
theorem reads_readLabel {label : ArgLabel} (hlabel : label.isNamed) (rest : List Char)
    (hrest : Unlabelled rest) :
    readLabel (label.argText.toList ++ rest) = some (label, rest) := by
  cases label with
  | positional => exact readLabel_of_unlabelled hrest
  | labelled l =>
      have hread : Reads (before ":" (readAs ArgLabel.labelled readName)) (fun _ => True) (l ++ ":")
          (.labelled l) := ((reads_readName hlabel).as _).before fun _ => rfl
      have htext : (ArgLabel.labelled l).argText = "~" ++ (l ++ ":") := String.append_assoc
      rw [htext]
      exact (hread.after "~").first rest trivial
  | optional l =>
      have hread : Reads (before ":" (readAs ArgLabel.optional readName)) (fun _ => True) (l ++ ":")
          (.optional l) := ((reads_readName hlabel).as _).before fun _ => rfl
      have htext : (ArgLabel.optional l).argText = "?" ++ (l ++ ":") := String.append_assoc
      rw [htext]
      exact ((hread.after "?").first.later_of_clash (by decide)) rest trivial

/-- An argument is read after its label. -/
theorem reads_readArg {label : ArgLabel} (hlabel : label.isNamed) (h : ReadsAtom text e)
    {depth : Nat} (hdepth : text.length ≤ depth) :
    Reads (readArg (read depth)) (Ends isAtomPart) (label.argText ++ text) (label, e) := by
  intro rest hrest
  rw [String.toList_append, List.append_assoc, readArg, andThen,
    reads_readLabel hlabel _ (h.unlabelled rest hrest), Option.bind_eq_bind, Option.bind_some]
  exact ((h depth hdepth).as _) rest hrest

/-- A function is read with all its arguments. It must not be a constructor, which would take the
first one. -/
theorem readsElement_apply {ts : List τ} {label : τ → ArgLabel} {f : τ → String} {g : τ → Expr ρ}
    (he : ReadsAtom text e) (hattach : e.attach? = none)
    (h : ∀ t ∈ ts, (label t).isNamed ∧ ReadsAtom (f t) (g t)) (hts : ts ≠ []) :
    ReadsElement (text ++ leadEach " " (ts.map fun t => (label t).argText ++ f t))
      (made (.apply e (ts.map fun t => (label t, g t)))) := by
  intro depth hdepth
  obtain ⟨depth, rfl⟩ : ∃ n, depth = n + 1 := ⟨depth - 1, by omega⟩
  rw [String.length_append] at hdepth
  have hread : ∀ t ∈ ts, Reads (readArg (read depth)) (Ends isAtomPart) ((label t).argText ++ f t)
      (label t, g t) := by
    intro t ht
    have hle := length_le_length_leadEach " "
      (List.mem_map_of_mem (f := fun t => (label t).argText ++ f t) ht)
    simp only [String.length_append] at hle
    exact reads_readArg (h t ht).1 (h t ht).2 (by omega)
  have hspace : ∀ cs, Ends isAtomPart (" ".toList ++ cs) := fun _ => rfl
  have hargs := ((Reads.sepBy (fun t ht _ => hread t ht) hts (by decide) hspace).after " ").as
    fun args => made (.apply e args)
  have htext : leadEach " " (ts.map fun t => (label t).argText ++ f t) =
      " " ++ joinWith " " (ts.map fun t => (label t).argText ++ f t) := by
    obtain ⟨t, ts, rfl⟩ := List.exists_cons_of_ne_nil hts
    simp only [List.map_cons, joinWith_cons, leadEach, String.append_assoc]
  rw [htext]
  have hrest : Reads (readRest (read depth) e) ElementClosing
      (" " ++ joinWith " " (ts.map fun t => (label t).argText ++ f t))
      (made (.apply e (ts.map fun t => (label t, g t)))) := by
    refine ((hargs.weaken fun rest hrest => ?_).first).later fun rest _ => by rw [hattach]; rfl
    exact ⟨ElementClosing.ends hrest, ElementClosing.readArg_eq_none hrest _⟩
  exact ((he depth (by omega)).andThen hrest fun rest _ => by
    rw [String.toList_append]
    rfl).first

end Expr

end DeriveKit
