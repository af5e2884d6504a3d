import DeriveKit.Proofs.PatternAttributes
import DeriveKit.Proofs.ReadLiteral
import DeriveKit.Proofs.ReadType

/-!
# DeriveKit.Proofs.ReadPattern

The text of a pattern can be read back. `Pattern.isLegible` says which patterns have a text that can
be read at all, and `Pattern.read` reads it. A reader is given a bound on the depth of what it
reads; the length of the text is always enough (`Pattern.readAny`).

The readers for the positions that a pattern can stand in build on each other:

* `ReadsAtom` — one argument of a constructor;
* `ReadsPattern` — anything up to a sign that ends a pattern (`Closing`);
* `ReadsAt` — either of the two, as the position asks for.
-/

namespace DeriveKit

variable {ρ : Type}

/-! ## patterns whose text can be read back -/

mutual

/-- Whether a pattern is made of names and literals that fit their places, and of forms that are
written out: no attributes, products of two patterns or more, and records with fields. -/
def Pattern.isLegible : Pattern Payload → Bool
  | ⟨shape, _, attributes⟩ => attributes.isEmpty && PatternShape.isLegible shape

/-- Whether a form of pattern is made of names and literals that fit their places. -/
def PatternShape.isLegible : PatternShape Payload → Bool
  | .any => true
  | .var name => isLowerName name.value
  | .aliased p name => isLowerName name.value && Pattern.isLegible p
  | .constant value => value.isLegible
  | .tuple elements => decide (2 ≤ elements.length) && Pattern.allLegible elements
  | .construct name none => name.value.isConstructor
  | .construct name (some arg) =>
      (name.value.isConstructor || (name.value.isCons && arg.isPair)) && Pattern.isLegible arg
  | .variant tag none => isName tag
  | .variant tag (some arg) => isName tag && Pattern.isLegible arg
  | .record fields _ => !fields.isEmpty && Pattern.fieldsLegible fields
  | .either left right => Pattern.isLegible left && Pattern.isLegible right
  | .constraint p type => Pattern.isLegible p && type.isLegible

/-- Whether patterns are made of names and literals that fit their places. -/
def Pattern.allLegible : List (Pattern Payload) → Bool
  | [] => true
  | p :: rest => Pattern.isLegible p && Pattern.allLegible rest

/-- Whether the fields of a pattern are made of names and literals that fit their places. -/
def Pattern.fieldsLegible : List (Located QualName × Pattern Payload) → Bool
  | [] => true
  | (label, p) :: rest =>
      label.value.isLabel && Pattern.isLegible p && Pattern.fieldsLegible rest

end

/-! ## the reader -/

/-- Reads a type that is followed by something else. -/
def TypeExpr.readAny : Reader (TypeExpr ρ) := fun cs => TypeExpr.read (cs.length + 1) cs

namespace Pattern

/-- The form as a pattern that was written nowhere. -/
def made (shape : PatternShape ρ) : Pattern ρ := bare shape .generated

/-- The pattern of a list with the given head and tail. -/
def consed (head tail : Pattern ρ) : Pattern ρ :=
  made (.construct (.generated (.simple "::")) (some (made (.tuple [head, tail]))))

/-- What becomes of a constructor or a tag by itself once an argument is read after it. -/
def attach? (p : Pattern ρ) : Option (Pattern ρ → Pattern ρ) :=
  match p.shape with
  | .construct name none => some fun arg => made (.construct name (some arg))
  | .variant tag none => some fun arg => made (.variant tag (some arg))
  | _ => none

variable (inner : Reader (Pattern ρ))

/-- Reads what stands after the first pattern in parentheses. -/
def readGroup (p : Pattern ρ) : Reader (Pattern ρ) :=
  firstOf
    [after ")" (readNothing p),
      after ", " (before ")" (readAs (fun ps => made (.tuple (p :: ps))) (sepBy ", " inner))),
      after " | " (before ")" (readAs (fun q => made (.either p q)) inner)),
      after " as "
        (before ")" (readAs (fun name => made (.aliased p (.generated name))) readLower)),
      after " : " (before ")" (readAs (fun t => made (.constraint p t)) TypeExpr.readAny))]

/-- Reads a field of a record. -/
def readField : Reader (Located QualName × Pattern ρ) :=
  andThen readLabelName fun label => after " = " (readAs (fun p => (.generated label, p)) inner)

/-- Reads what stands after the opening brace of a record. -/
def readRecord : Reader (Pattern ρ) :=
  andThen (sepBy "; " (readField inner)) fun fields =>
    firstOf
      [after " \x7d" (readNothing (made (.record fields .closed))),
        after "; _ \x7d" (readNothing (made (.record fields .extensible)))]

/-- Reads a variable, a constructor or a wildcard. -/
def readNamed : Reader (Pattern ρ) :=
  firstOf
    [readAs (fun name => made (.var (.generated name))) readLower,
      readAs (fun name => made (.construct (.generated name) none)) readConstructorName,
      after "_" (readNothing (made .any))]

/-- Reads a pattern that nothing takes apart. -/
def readAtom : Reader (Pattern ρ) :=
  firstOf
    [after "(" (andThen inner (readGroup inner)),
      after "\x7b " (readRecord inner),
      after "`" (readAs (fun tag => made (.variant tag none)) readName),
      readNamed,
      readAs (fun c => made (.constant c)) readConstant]

/-- Reads what goes on with an atom `p`: an argument if there can be one, or the tail of a list. -/
def readRest (p : Pattern ρ) : Reader (Pattern ρ) :=
  firstOf
    [fun cs => p.attach?.bind fun attach => readAs attach (after " " (readAtom inner)) cs,
      after " :: " (readAs (consed p) inner),
      readNothing p]

/-- Reads any pattern whose parts `inner` can read. -/
def readStep : Reader (Pattern ρ) :=
  firstOf
    [andThen (readAtom inner) (readRest inner), readAs (fun c => made (.constant c)) readNumber]

/-- Reads any pattern that is nested no deeper than `depth`. -/
def read : Nat → Reader (Pattern ρ)
  | 0 => fun _ => none
  | depth + 1 => readStep (read depth)

/-- Reads any pattern. -/
def readAny : Reader (Pattern ρ) := fun cs => read (cs.length + 1) cs

/-- Reads any pattern that nothing takes apart. -/
def readAnyAtom : Reader (Pattern ρ) := fun cs => readAtom (read cs.length) cs

/-! ## what a pattern is followed by -/

end Pattern

/-- The characters that could go on with a pattern or an expression that nothing takes apart. -/
def isAtomPart (c : Char) : Bool := isPathChar c || isNumberPart c

/-- Where an atom ends, the last name in it ends (`isAtomPart`). -/
theorem ends_isPathChar_of_isAtomPart {cs : List Char} (h : Ends isAtomPart cs) :
    Ends isPathChar cs := by
  cases cs with
  | nil => trivial
  | cons c cs => exact (Bool.or_eq_false_iff.1 h).1

/-- Where an atom ends, a number that it is ends. -/
theorem ends_isNumberPart_of_isAtomPart {cs : List Char} (h : Ends isAtomPart cs) :
    Ends isNumberPart cs := by
  cases cs with
  | nil => trivial
  | cons c cs => exact (Bool.or_eq_false_iff.1 h).2

/-- Where an atom ends, a name without modules before it ends. -/
theorem ends_isNameChar_of_isAtomPart {cs : List Char} (h : Ends isAtomPart cs) :
    Ends isNameChar cs :=
  ends_isNameChar_of_isPathChar (ends_isPathChar_of_isAtomPart h)

/-- No field is taken of an atom that ends. -/
theorem expect_dot_of_isAtomPart {cs : List Char}
    (h : Ends isAtomPart cs) : expect "." cs = none := by
  cases cs with
  | nil => rfl
  | cons c cs =>
      refine expect_of_ne (bne_iff_ne.2 ?_)
      rintro rfl
      exact absurd h (Bool.eq_false_iff.1 · rfl)

namespace Pattern

/-- What may stand after a pattern that stands alone, apart from the end of the text. -/
def closers : List String :=
  [")", ", ", "; ", " | ", " as ", " : ", " \x7d", " = ", " -> ", " when "]

/-- What may stand after a pattern that stands alone. -/
abbrev Closing (cs : List Char) : Prop := StopsAt closers cs

/-- Where no atom opens, only a constant can be read (`NoOpening`). -/
theorem readAtom_of_noOpening {cs : List Char} (h : NoOpening cs) (inner : Reader (Pattern ρ)) :
    readAtom inner cs = readAs (fun c => made (.constant c)) readConstant cs := by
  have hnamed : readNamed (ρ := ρ) cs = none := by
    rw [readNamed, firstOf_cons_of_none (readAs_of_none h.lower _),
      firstOf_cons_of_none (readAs_of_none h.constructor _),
      firstOf_cons_of_none (after_of_expect (h.opening "_" (by decide))), firstOf_nil]
  rw [readAtom, firstOf_cons_of_none (after_of_expect (h.opening "(" (by decide))),
    firstOf_cons_of_none (after_of_expect (h.opening "\x7b " (by decide))),
    firstOf_cons_of_none (after_of_expect (h.opening "`" (by decide))),
    firstOf_cons_of_none hnamed, firstOf_singleton]

/-- `readAtom` fails where nothing stands. -/
theorem readAtom_of_vacant {cs : List Char} (h : Vacant cs) (inner : Reader (Pattern ρ)) :
    readAtom inner cs = none := by
  rw [readAtom_of_noOpening h.toNoOpening, readAs_of_none h.constant]

/-- No pattern is read where nothing stands and no number begins. -/
theorem readAny_of_vacant {cs : List Char} (h : Vacant cs) (hnumber : readNumber cs = none) :
    readAny (ρ := ρ) cs = none := by
  show readStep (read cs.length) cs = none
  rw [readStep, firstOf_cons_of_none (andThen_of_none (readAtom_of_vacant h _) _),
    firstOf_cons_of_none (readAs_of_none hnumber _), firstOf_nil]

/-- What closes a pattern is no part of its last atom. -/
theorem Closing.ends {cs : List Char} (h : Closing cs) : Ends isAtomPart cs := by
  cases h with
  | nil => trivial
  | lead h cs =>
      simp only [closers, List.mem_cons, List.not_mem_nil, or_false] at h
      obtain rfl | rfl | rfl | rfl | rfl | rfl | rfl | rfl | rfl | rfl := h <;> rfl

/-- No argument stands where a pattern ends. -/
theorem Closing.notApplied {cs : List Char} (h : Closing cs) : NotApplied cs := by
  cases h with
  | nil => exact notApplied_of_expect rfl
  | lead h cs =>
      simp only [closers, List.mem_cons, List.not_mem_nil, or_false] at h
      obtain rfl | rfl | rfl | rfl | rfl | rfl | rfl | rfl | rfl | rfl := h
      · exact notApplied_of_expect (expect_of_clash (by decide) cs)
      · exact notApplied_of_expect (expect_of_clash (by decide) cs)
      · exact notApplied_of_expect (expect_of_clash (by decide) cs)
      · exact notApplied_of_vacant (vacant_of_sign (c := '|') rfl rfl (by decide) _)
      · exact notApplied_of_vacant (vacant_of_keyword (w := "as") (by decide) rfl)
      · exact notApplied_of_vacant (vacant_of_sign (c := ':') rfl rfl (by decide) _)
      · exact notApplied_of_vacant (vacant_of_sign (c := '\x7d') rfl rfl (by decide) _)
      · exact notApplied_of_vacant (vacant_of_sign (c := '=') rfl rfl (by decide) _)
      · exact notApplied_of_vacant (vacant_of_sign (c := '-') rfl rfl (by decide) _)
      · exact notApplied_of_vacant (vacant_of_keyword (w := "when") (by decide) rfl)

/-! ## what is read in each position -/

/-- The text of an atom is read as `p`. -/
def ReadsAtom (text : String) (p : Pattern ρ) : Prop :=
  ∀ depth, text.length ≤ depth → Reads (readAtom (read depth)) (Ends isAtomPart) text p

/-- The text of a pattern that stands alone is read as `p`. -/
def ReadsPattern (text : String) (p : Pattern ρ) : Prop :=
  ∀ depth, text.length < depth → Reads (read depth) Closing text p

/-- The text of a pattern is read as `p`; `nested` if something stands directly before it. -/
def ReadsAt (nested : Bool) (text : String) (p : Pattern ρ) : Prop :=
  if nested then ReadsAtom text p else ReadsPattern text p

section

variable {text : String} {p : Pattern ρ}

/-- Where a pattern closes, `readRest` leaves it as it is. -/
theorem readRest_of_closing {cs : List Char} (h : Closing cs) (inner : Reader (Pattern ρ))
    (p : Pattern ρ) : readRest inner p cs = some (p, cs) := by
  have hattach : (p.attach?.bind fun attach => readAs attach (after " " (readAtom inner)) cs) =
      none :=
    Option.bind_eq_none_iff.2 fun attach _ =>
      readAs_of_none (h.notApplied.after_eq_none fun _ hrest =>
        readAtom_of_vacant hrest inner) attach
  rw [readRest, firstOf_cons_of_none hattach,
    firstOf_cons_of_none (after_of_expect (h.expect_eq_none (by decide)))]
  rfl

/-- An atom is a pattern by itself, since `readRest` finds nothing to go on with. -/
theorem ReadsAtom.pattern (h : ReadsAtom text p) : ReadsPattern text p := by
  intro depth hdepth
  obtain ⟨depth, rfl⟩ := Nat.exists_eq_add_of_lt hdepth
  have hread := h (text.length + depth) (by omega)
  have hrest : Reads (readRest (read (text.length + depth)) p) Closing "" p := fun rest hrest =>
    readRest_of_closing hrest _ p
  have hstep : Reads (readStep (read (text.length + depth))) Closing (text ++ "") p :=
    (hread.andThen hrest fun _ => Closing.ends).first
  rwa [String.append_empty] at hstep

/-- What is read in parentheses: a pattern, and what makes it part of another one. -/
theorem ReadsPattern.group (h : ReadsPattern text p) {q : Pattern ρ} {tail : String}
    (hgroup : ∀ depth, tail.length < depth →
      Reads (readGroup (read depth) p) (fun _ => True) tail q)
    (hclosing : ∀ cs, Closing (tail.toList ++ cs)) : ReadsAtom ("(" ++ (text ++ tail)) q := by
  intro depth hdepth
  have hparen : "(".length = 1 := rfl
  rw [String.length_append, String.length_append] at hdepth
  exact (((h depth (by omega)).andThen (hgroup depth (by omega)) fun cs _ => hclosing cs).after
    "(").first.weaken fun _ _ => trivial

/-- Any pattern is an atom once it stands in parentheses. -/
theorem ReadsPattern.parens (h : ReadsPattern text p) : ReadsAtom ("(" ++ text ++ ")") p := by
  rw [String.append_assoc]
  refine h.group (fun depth _ => ?_) (.lead (by decide))
  have hgroup : Reads (readGroup (read depth) p) (fun _ => True) (")" ++ "") p :=
    ((reads_readNothing p).after ")").first
  exact hgroup

/-- Any pattern can be read in any position if the nested ones have parentheses around it. -/
theorem ReadsPattern.at (h : ReadsPattern text p) (nested : Bool) :
    ReadsAt nested (DeriveKit.parens nested text) p := by
  cases nested with
  | false => exact h
  | true => exact h.parens

/-- An atom needs no parentheses, wherever it stands. -/
theorem ReadsAtom.at (h : ReadsAtom text p) (nested : Bool) : ReadsAt nested text p := by
  cases nested with
  | false => exact h.pattern
  | true => exact h

/-- `readAny` gives itself a bound that suffices, so no bound is left in the result. -/
theorem ReadsPattern.readAny (h : ReadsPattern text p) : Reads readAny Closing text p := by
  intro rest hrest
  refine h _ ?_ rest hrest
  rw [List.length_append, String.length_toList]
  omega

/-- So does `readAnyAtom`, for parameters. -/
theorem ReadsAtom.readAnyAtom (h : ReadsAtom text p) :
    Reads readAnyAtom (Ends isAtomPart) text p := by
  intro rest hrest
  refine h _ ?_ rest hrest
  rw [List.length_append, String.length_toList]
  omega

end

end Pattern

/-- Types that stand in a pattern or an expression are read without a bound, too. -/
theorem TypeExpr.ReadsType.readAny {text : String} {t : TypeExpr ρ} (h : ReadsType text t) :
    Reads readAny Closing text t := by
  intro rest hrest
  refine h _ ?_ rest hrest
  rw [List.length_append, String.length_toList]
  omega

end DeriveKit
