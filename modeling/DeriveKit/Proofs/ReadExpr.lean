import DeriveKit.Proofs.ExprForms
import DeriveKit.Proofs.ReadPattern

/-!
# DeriveKit.Proofs.ReadExpr

The text of an expression can be read back. `Expr.isLegible` says which expressions have a text that
can be read at all. A reader for expressions is a pair of two (`Readers`): one for those that may
stand between separators (`element`), and one for those that reach as far as they can (`top`).

The positions build on each other, from `ReadsPrimary`, which can begin a selection of fields, over
`ReadsHead`, `ReadsAtom`, `ReadsElement` and `ReadsBody` to `ReadsTop`. What may follow in the last
three is `ElementClosing`, `BodyClosing` and `TopClosing`.
-/

namespace DeriveKit

variable {ρ : Type}

/-! ## expressions whose text can be read back -/

/-- Whether an expression can be applied or have a field: it is no constructor or tag by itself, to
which an argument would belong, and no number. -/
def Expr.isHead (e : Expr ρ) : Bool :=
  match e.shape with
  | .construct _ none | .variant _ none => false
  | .constant value => !value.isNumber
  | _ => true

mutual

/-- Whether an expression is made of names and literals that fit their places, and of forms that are
written out: no attributes, no extension nodes, and no empty lists of parts. -/
def Expr.isLegible : Expr Payload → Bool
  | ⟨shape, _, attributes⟩ => attributes.isEmpty && ExprShape.isLegible shape

/-- Whether a form of expression is made of names and literals that fit their places, and of forms
that are written out. -/
def ExprShape.isLegible : ExprShape Payload → Bool
  | .ident name => name.value.isValue
  | .constant value => value.isLegible
  | .letIn _ bindings body =>
      !bindings.isEmpty && Binding.allLegible bindings && Expr.isLegible body
  | .function cases => !cases.isEmpty && Case.allLegible cases
  | .lambda label default param body =>
      label.isNamed && (label.isOptional || default.isNone) && Expr.optionLegible default &&
        param.isLegible && Expr.isLegible body
  | .apply function args =>
      function.isHead && Expr.isLegible function && !args.isEmpty && Expr.argsLegible args
  | .matchWith scrutinee cases =>
      Expr.isLegible scrutinee && !cases.isEmpty && Case.allLegible cases
  | .tuple elements => decide (2 ≤ elements.length) && Expr.allLegible elements
  | .construct name none => name.value.isConstructor
  | .construct name (some arg) =>
      (name.value.isConstructor || (name.value.isCons && arg.isPair)) && Expr.isLegible arg
  | .variant tag arg => isName tag && Expr.optionLegible arg
  | .record fields base =>
      !fields.isEmpty && Expr.fieldsLegible fields && Expr.optionLegible base
  | .field record label => record.isHead && Expr.isLegible record && label.value.isLabel
  | .ifThenElse condition onTrue onFalse =>
      Expr.isLegible condition && Expr.isLegible onTrue && Expr.optionLegible onFalse
  | .sequence first second => Expr.isLegible first && Expr.isLegible second
  | .constraint expr type => Expr.isLegible expr && type.isLegible
  | .openIn decl body =>
      decl.attributes.isEmpty && decl.module.value.isModule && Expr.isLegible body
  | .extension _ => false

/-- Whether expressions are made of names and literals that fit their places. -/
def Expr.allLegible : List (Expr Payload) → Bool
  | [] => true
  | e :: rest => Expr.isLegible e && Expr.allLegible rest

/-- Whether the expression, if there is one, is made of names and literals that fit their places. -/
def Expr.optionLegible : Option (Expr Payload) → Bool
  | none => true
  | some e => Expr.isLegible e

/-- Whether arguments are made of names and literals that fit their places. -/
def Expr.argsLegible : List (ArgLabel × Expr Payload) → Bool
  | [] => true
  | (label, e) :: rest => label.isNamed && Expr.isLegible e && Expr.argsLegible rest

/-- Whether the fields of a record are made of names and literals that fit their places. -/
def Expr.fieldsLegible : List (Located QualName × Expr Payload) → Bool
  | [] => true
  | (label, e) :: rest => label.value.isLabel && Expr.isLegible e && Expr.fieldsLegible rest

/-- Whether cases are made of names and literals that fit their places. -/
def Case.allLegible : List (Case Payload) → Bool
  | [] => true
  | ⟨pattern, guard, body⟩ :: rest =>
      pattern.isLegible && Expr.optionLegible guard && Expr.isLegible body && Case.allLegible rest

/-- Whether bindings are made of names and literals that fit their places. -/
def Binding.allLegible : List (Binding Payload) → Bool
  | [] => true
  | ⟨pattern, expr, attributes, _⟩ :: rest =>
      attributes.isEmpty && pattern.isLegible && Expr.isLegible expr && Binding.allLegible rest

end

/-! ## the reader -/

/-- Reads the label of an argument or a parameter. -/
def readLabel : Reader ArgLabel :=
  firstOf
    [after "~" (before ":" (readAs .labelled readName)),
      after "?" (before ":" (readAs .optional readName)),
      readNothing .positional]

/-- Readers for expressions: `top` for those that reach as far as they can, and `element` for those
that may stand between separators. -/
structure Readers (ρ : Type) where
  top : Reader (Expr ρ)
  element : Reader (Expr ρ)

namespace Expr

/-- The form as an expression that was written nowhere. -/
def made (shape : ExprShape ρ) : Expr ρ := bare shape .generated

/-- The list with the given head and tail. -/
def consed (head tail : Expr ρ) : Expr ρ :=
  made (.construct (.generated (.simple "::")) (some (made (.tuple [head, tail]))))

/-- The list of the given elements. -/
def listed (elements : List (Expr ρ)) : Expr ρ :=
  elements.foldr consed (made (.construct (.generated (.simple "[]")) none))

/-- One field after another of a record. -/
def selected (e : Expr ρ) : List QualName → Expr ρ
  | [] => e
  | label :: labels => selected (made (.field e (.generated label))) labels

/-- What becomes of a constructor or a tag by itself once an argument is read after it. -/
def attach? (e : Expr ρ) : Option (Expr ρ → Expr ρ) :=
  match e.shape with
  | .construct name none => some fun arg => made (.construct name (some arg))
  | .variant tag none => some fun arg => made (.variant tag (some arg))
  | _ => none

variable (inner : Readers ρ)

/-! ### what nothing takes apart -/

/-- Reads what stands after the first expression in parentheses. -/
def readGroup (e : Expr ρ) : Reader (Expr ρ) :=
  firstOf
    [after ")" (readNothing e),
      after ", " (before ")"
      (readAs (fun es => made (.tuple (e :: es))) (sepBy ", " inner.element))),
      after " : " (before ")" (readAs (fun t => made (.constraint e t)) TypeExpr.readAny))]

/-- Reads a field of a record. -/
def readField : Reader (Located QualName × Expr ρ) :=
  andThen readLabelName fun label =>
    after " = " (readAs (fun e => (.generated label, e)) inner.element)

/-- Reads the fields of a record and its closing brace. -/
def readFields (base : Option (Expr ρ)) : Reader (Expr ρ) :=
  before " \x7d" (readAs (fun fields => made (.record fields base)) (sepBy "; " (readField inner)))

/-- Reads what stands after the opening brace of a record. -/
def readRecord : Reader (Expr ρ) :=
  firstOf
    [andThen inner.element fun base => after " with " (readFields inner (some base)),
      readFields inner none]

/-- Reads an identifier or a constructor. -/
def readNamed : Reader (Expr ρ) :=
  firstOf
    [readAs (fun name => made (.ident (.generated name))) readValueName,
      readAs (fun name => made (.construct (.generated name) none)) readConstructorName]

/-- Reads an expression that nothing takes apart, apart from the fields taken of it. -/
def readPrimary : Reader (Expr ρ) :=
  firstOf
    [after "(" (andThen inner.top (readGroup inner)),
      after "[" (before "]" (readAs listed (sepBy "; " inner.element))),
      after "\x7b " (readRecord inner),
      after "`" (readAs (fun tag => made (.variant tag none)) readName),
      readNamed,
      readAs (fun c => made (.constant c)) readConstant]

/-- Reads an expression that nothing takes apart. -/
def readAtom : Reader (Expr ρ) :=
  andThen (readPrimary inner) fun e => readAs e.selected (several (after "." readLabelName))

/-! ### what stands between separators -/

/-- Reads an argument. -/
def readArg : Reader (ArgLabel × Expr ρ) :=
  andThen readLabel fun label => readAs (fun e => (label, e)) (readAtom inner)

/-- Reads what goes on with an atom `e`: the argument of a constructor or a tag, the arguments of a
function, or the tail of a list. -/
def readRest (e : Expr ρ) : Reader (Expr ρ) :=
  firstOf
    [fun cs => e.attach?.bind fun attach => readAs attach (after " " (readAtom inner)) cs,
      readAs (fun args => made (.apply e args)) (after " " (sepBy " " (readArg inner))),
      after " :: " (readAs (consed e) inner.element),
      readNothing e]

/-- Reads an expression that may stand between separators. -/
def readElement : Reader (Expr ρ) :=
  firstOf
    [andThen (readAtom inner) (readRest inner), readAs (fun c => made (.constant c)) readNumber]

/-! ### what reaches as far as it can -/

/-- Reads an element, or a sequence that begins with one. -/
def readSequence : Reader (Expr ρ) :=
  andThen (readElement inner) fun e =>
    firstOf [after "; " (readAs (fun e' => made (.sequence e e')) inner.top), readNothing e]

/-- Reads a binding. -/
def readBinding : Reader (Binding ρ) :=
  andThen Pattern.readAny fun p => after " = " (readAs (fun e => ⟨p, e, [], .generated⟩) inner.top)

/-- Reads bindings and the body they are for. -/
def readBindings (recursion : Recursion) : Reader (Expr ρ) :=
  andThen (sepBy " and " (readBinding inner)) fun bindings =>
    after " in " (readAs (fun body => made (.letIn recursion bindings body)) inner.top)

/-- Reads the name of a module and the body it is opened for. -/
def readOpen (override : Bool) : Reader (Expr ρ) :=
  andThen readModulePath fun module =>
    after " in " (readAs
      (fun body => made (.openIn ⟨.generated module, override, [], .generated⟩ body)) inner.top)

/-- Reads what stands after `let`. -/
def readLet : Reader (Expr ρ) :=
  firstOf
    [readBindings inner .nonrecursive, after "rec " (readBindings inner .recursive),
      after "open! " (readOpen inner true), after "open " (readOpen inner false)]

/-- Reads a parameter and its default, if it has one. -/
def readParam : Reader (Pattern ρ × Option (Expr ρ)) :=
  firstOf
    [readAs (fun p => (p, none)) Pattern.readAnyAtom,
      after "("
        (andThen Pattern.readAny fun p =>
          after " = " (before ")" (readAs (fun e => (p, some e)) inner.top)))]

/-- Reads what stands after `fun`. -/
def readLambda : Reader (Expr ρ) :=
  andThen readLabel fun label =>
    andThen (readParam inner) fun param =>
      after " -> " (readAs (fun body => made (.lambda label param.2 param.1 body)) inner.top)

/-- Reads the guard of a case, if it has one. -/
def readGuard : Reader (Option (Expr ρ)) :=
  firstOf [after " when " (readAs some inner.top), readNothing none]

/-- Reads a case. -/
def readCase : Reader (Case ρ) :=
  andThen Pattern.readAny fun p =>
    andThen (readGuard inner) fun guard =>
      after " -> " (readAs (fun body => ⟨p, guard, body⟩) inner.top)

/-- Reads cases, each with a bar before it. -/
def readCases : Reader (List (Case ρ)) := several (after " | " (readCase inner))

/-- Reads what stands after `match`. -/
def readMatch : Reader (Expr ρ) :=
  andThen inner.top fun scrutinee =>
    after " with" (readAs (fun cases => made (.matchWith scrutinee cases)) (readCases inner))

/-- Reads what stands after `if`. -/
def readIf : Reader (Expr ρ) :=
  andThen inner.top fun condition =>
    after " then " (andThen inner.element fun onTrue =>
      firstOf
        [after " else "
            (readAs (fun onFalse =>
              made (.ifThenElse condition onTrue (some onFalse))) inner.element),
          readNothing (made (.ifThenElse condition onTrue none))])

/-- Reads an expression that reaches as far as it can. -/
def readTop : Reader (Expr ρ) :=
  firstOf
    [readSequence inner, after "let " (readLet inner), after "fun " (readLambda inner),
      after "function" (readAs (fun cases => made (.function cases)) (readCases inner)),
      after "match " (readMatch inner), after "if " (readIf inner)]

/-- Reads any expression that is nested no deeper than `depth`. -/
def read : Nat → Readers ρ
  | 0 => ⟨fun _ => none, fun _ => none⟩
  | depth + 1 => ⟨readTop (read depth), readElement (read depth)⟩

/-- Reads a text as an expression, if it is the text of one. -/
def ofText (s : String) : Option (Expr ρ) :=
  match (read (s.length + 1)).top s.toList with
  | some (e, []) => some e
  | _ => none

/-! ## what an expression is followed by -/

/-- What may stand after an expression that reaches as far as it can, apart from the end of the
text. -/
def topClosers : List String := [")", " : ", " in ", " and ", " then ", " with ", " -> "]

/-- What may stand after an element that is read as an expression of any form. -/
def bodyClosers : List String := topClosers ++ [", ", " | "]

/-- What may stand after an element. -/
def elementClosers : List String := bodyClosers ++ ["; ", "]", " \x7d", " else ", " = "]

/-- What may stand after an expression that reaches as far as it can. -/
abbrev TopClosing (cs : List Char) : Prop := StopsAt topClosers cs

/-- What may stand after an element that is read as an expression of any form. -/
abbrev BodyClosing (cs : List Char) : Prop := StopsAt bodyClosers cs

/-- What may stand after an element. -/
abbrev ElementClosing (cs : List Char) : Prop := StopsAt elementClosers cs

/-- No label begins here. -/
def Unlabelled (cs : List Char) : Prop := expect "~" cs = none ∧ expect "?" cs = none

section

variable {cs : List Char}

/-- What closes an expression of any reach closes the body of a form. -/
theorem TopClosing.body (h : TopClosing cs) : BodyClosing cs :=
  h.mono (List.subset_append_left _ _)

/-- What closes a body closes an element, too: the three kinds of place are nested. -/
theorem BodyClosing.element (h : BodyClosing cs) : ElementClosing cs :=
  h.mono (List.subset_append_left _ _)

/-- What closes an element is no part of its last atom. -/
theorem ElementClosing.ends (h : ElementClosing cs) : Ends isAtomPart cs := by
  cases h with
  | nil => trivial
  | lead h cs =>
      have hall : ∀ s ∈ elementClosers, s.toList.head?.any fun c => !isAtomPart c := by decide
      have hhead := hall _ h
      rw [Option.any_eq_true] at hhead
      obtain ⟨c, hc, hpart⟩ := hhead
      obtain ⟨ds, hds⟩ := List.head?_eq_some_iff.1 hc
      rw [hds, List.cons_append]
      exact (Bool.not_eq_true' _).mp hpart

/-- No argument stands where an element ends. -/
theorem ElementClosing.notApplied (h : ElementClosing cs) : NotApplied cs := by
  cases h with
  | nil => exact notApplied_of_expect rfl
  | lead h cs =>
      simp only [elementClosers, bodyClosers, topClosers, List.cons_append, List.nil_append,
        List.mem_cons, List.not_mem_nil, or_false] at h
      obtain rfl | rfl | rfl | rfl | rfl | rfl | rfl | rfl | rfl | rfl | rfl | rfl | rfl | rfl := h
      · exact notApplied_of_expect (expect_of_clash (by decide) cs)
      · exact notApplied_of_vacant (vacant_of_sign (c := ':') rfl rfl (by decide) _)
      · exact notApplied_of_vacant (vacant_of_keyword (w := "in") (by decide) rfl)
      · exact notApplied_of_vacant (vacant_of_keyword (w := "and") (by decide) rfl)
      · exact notApplied_of_vacant (vacant_of_keyword (w := "then") (by decide) rfl)
      · exact notApplied_of_vacant (vacant_of_keyword (w := "with") (by decide) rfl)
      · exact notApplied_of_vacant (vacant_of_sign (c := '-') rfl rfl (by decide) _)
      · exact notApplied_of_expect (expect_of_clash (by decide) cs)
      · exact notApplied_of_vacant (vacant_of_sign (c := '|') rfl rfl (by decide) _)
      · exact notApplied_of_expect (expect_of_clash (by decide) cs)
      · exact notApplied_of_expect (expect_of_clash (by decide) cs)
      · exact notApplied_of_vacant (vacant_of_sign (c := '\x7d') rfl rfl (by decide) _)
      · exact notApplied_of_vacant (vacant_of_keyword (w := "else") (by decide) rfl)
      · exact notApplied_of_vacant (vacant_of_sign (c := '=') rfl rfl (by decide) _)

end

/-! ## where no expression begins -/

section

variable {cs : List Char}

/-- No label begins where something is read that needs more than a sign to begin with. -/
theorem unlabelled_of_read {α : Type} {read : Reader α} (hread : read cs ≠ none)
    (hvacant : ∀ cs, Vacant cs → read cs = none) : Unlabelled cs := by
  have hne : ∀ (c : Char) (ds : List Char), Vacant (c :: ds) → cs ≠ c :: ds := by
    rintro c ds h rfl
    exact hread (hvacant _ h)
  cases cs with
  | nil => exact ⟨rfl, rfl⟩
  | cons c ds =>
      have htilde : '~' ≠ c := by
        rintro rfl
        exact hne _ ds (vacant_of_sign rfl rfl (by decide) ds) rfl
      have hquestion : '?' ≠ c := by
        rintro rfl
        exact hne _ ds (vacant_of_sign rfl rfl (by decide) ds) rfl
      exact ⟨expect_of_ne (bne_iff_ne.2 htilde), expect_of_ne (bne_iff_ne.2 hquestion)⟩

/-- An argument without a label is positional. -/
theorem readLabel_of_unlabelled (h : Unlabelled cs) : readLabel cs = some (.positional, cs) := by
  rw [readLabel, firstOf_cons_of_none (after_of_expect h.1),
    firstOf_cons_of_none (after_of_expect h.2), firstOf_singleton, readNothing]

/-- Where nothing opens an atom, only a constant can be read (`readPrimary`). -/
theorem readPrimary_of_noOpening (h : NoOpening cs) (inner : Readers ρ) :
    readPrimary inner cs = readAs (fun c => made (.constant c)) readConstant cs := by
  have hnamed : readNamed (ρ := ρ) cs = none := by
    rw [readNamed, firstOf_cons_of_none (readAs_of_none h.value _),
      firstOf_cons_of_none (readAs_of_none h.constructor _), firstOf_nil]
  rw [readPrimary, firstOf_cons_of_none (after_of_expect (h.opening "(" (by decide))),
    firstOf_cons_of_none (after_of_expect (h.opening "[" (by decide))),
    firstOf_cons_of_none (after_of_expect (h.opening "\x7b " (by decide))),
    firstOf_cons_of_none (after_of_expect (h.opening "`" (by decide))),
    firstOf_cons_of_none hnamed, firstOf_singleton]

/-- `readAtom` fails where nothing stands. -/
theorem readAtom_of_vacant (h : Vacant cs) (inner : Readers ρ) : readAtom inner cs = none := by
  have hprimary : readPrimary inner cs = none := by
    rw [readPrimary_of_noOpening h.toNoOpening, readAs_of_none h.constant]
  exact andThen_of_none hprimary _

/-- No argument is read where nothing stands. -/
theorem readArg_of_vacant (h : Vacant cs) (hlabel : Unlabelled cs) (inner : Readers ρ) :
    readArg inner cs = none := by
  rw [readArg, andThen, readLabel_of_unlabelled hlabel, Option.bind_eq_bind, Option.bind_some]
  exact readAs_of_none (readAtom_of_vacant h inner) _

/-- No element is read where nothing stands and no number begins. -/
theorem readElement_of_vacant (h : Vacant cs) (hnumber : readNumber cs = none) (inner : Readers ρ) :
    readElement inner cs = none := by
  rw [readElement, firstOf_cons_of_none (andThen_of_none (readAtom_of_vacant h inner) _),
    firstOf_cons_of_none (readAs_of_none hnumber _), firstOf_nil]

/-- No argument stands where an element ends, with or without a label. -/
theorem ElementClosing.readArg_eq_none (h : ElementClosing cs) (inner : Readers ρ) :
    after " " (readArg inner) cs = none := by
  rw [after, Option.bind_eq_bind, Option.bind_eq_none_iff]
  intro rest hrest
  have hlabel : ∀ word, expect (" " ++ word) cs = none → expect word rest = none := by
    intro word hword
    rw [expect_append_word, hrest, Option.bind_some] at hword
    exact hword
  exact readArg_of_vacant (h.notApplied rest hrest)
    ⟨hlabel "~" (h.expect_eq_none (by decide)), hlabel "?" (h.expect_eq_none (by decide))⟩ inner

/-- A function has no arguments behind the place where an element closes. -/
theorem ElementClosing.readArgs_eq_none (h : ElementClosing cs) (inner : Readers ρ) :
    after " " (sepBy " " (readArg inner)) cs = none := by
  have harg := h.readArg_eq_none inner
  rw [after, Option.bind_eq_bind, Option.bind_eq_none_iff] at harg ⊢
  exact fun rest hrest => sepBy_of_none (harg rest hrest) " "

/-- Where an element closes, `readRest` leaves it as it is. -/
theorem readRest_of_closing (h : ElementClosing cs) (inner : Readers ρ) (e : Expr ρ) :
    readRest inner e cs = some (e, cs) := by
  have hattach : (e.attach?.bind fun attach => readAs attach (after " " (readAtom inner)) cs) =
      none :=
    Option.bind_eq_none_iff.2 fun attach _ =>
      readAs_of_none (h.notApplied.after_eq_none fun _ hrest =>
        readAtom_of_vacant hrest inner) attach
  rw [readRest, firstOf_cons_of_none hattach,
    firstOf_cons_of_none (readAs_of_none (h.readArgs_eq_none inner) _),
    firstOf_cons_of_none (after_of_expect (h.expect_eq_none (by decide)))]
  rfl

end

/-! ## what is read in each position -/

/-- The text of an expression that begins a selection of fields is read as `e`. -/
def ReadsPrimary (text : String) (e : Expr ρ) : Prop :=
  ∀ depth, text.length ≤ depth → Reads (readPrimary (read depth)) (Ends isNameChar) text e

/-- The text of an expression that can be applied or have a field is read as `e`. -/
def ReadsHead (text : String) (e : Expr ρ) : Prop :=
  ∃ (first : String) (record : Expr ρ) (labels : List QualName),
    ReadsPrimary first record ∧ (∀ l ∈ labels, l.isLabel) ∧
      text = first ++ leadEach "." (labels.map QualName.text) ∧ e = record.selected labels

/-- The text of an expression that nothing takes apart is read as `e`. -/
def ReadsAtom (text : String) (e : Expr ρ) : Prop :=
  ∀ depth, text.length ≤ depth → Reads (readAtom (read depth)) (Ends isAtomPart) text e

/-- The text of an expression that may stand between separators is read as `e`. -/
def ReadsElement (text : String) (e : Expr ρ) : Prop :=
  ∀ depth, text.length < depth → Reads (read depth).element ElementClosing text e

/-- The text of an expression that may stand between separators is read as `e` where an expression
of any form may stand. -/
def ReadsBody (text : String) (e : Expr ρ) : Prop :=
  ∀ depth, text.length < depth → Reads (read depth).top BodyClosing text e

/-- The text of an expression that reaches as far as it can is read as `e`. -/
def ReadsTop (text : String) (e : Expr ρ) : Prop :=
  ∀ depth, text.length < depth → Reads (read depth).top TopClosing text e

/-- The text of an expression is read as `e` in a position. -/
def ReadsAt : ExprPosition → String → Expr ρ → Prop
  | .top => ReadsTop
  | .element => ReadsElement
  | .operand | .atom => ReadsAtom

section

variable {text : String} {e : Expr ρ}

/-- What `readPrimary` reads is an atom if no field is taken of it. -/
theorem readsAtom_of_primary
    (h : ∀ depth, text.length ≤ depth → Reads (readPrimary (read depth)) (Ends isAtomPart) text e) :
    ReadsAtom text e := by
  intro depth hdepth
  have hnone : Reads (several (after "." readLabelName)) (Ends isAtomPart) "" [] :=
    reads_several_nil fun rest hrest => after_of_expect (expect_dot_of_isAtomPart hrest)
  have hread : Reads (readAtom (read depth)) (Ends isAtomPart) (text ++ "") e :=
    (h depth hdepth).andThen (hnone.as e.selected) fun rest (hrest : Ends isAtomPart rest) => hrest
  rwa [String.append_empty] at hread

/-- What `readPrimary` reads can have fields taken of it: `ReadsHead` with none taken so far. -/
theorem ReadsPrimary.head (h : ReadsPrimary text e) : ReadsHead text e :=
  ⟨text, e, [], h, by simp, by rw [List.map_nil, leadEach, String.append_empty], rfl⟩

/-- An expression that fields are taken of is an atom, with all of them. -/
theorem ReadsHead.atom (h : ReadsHead text e) : ReadsAtom text e := by
  obtain ⟨first, record, labels, hfirst, hlabels, rfl, rfl⟩ := h
  intro depth hdepth
  rw [String.length_append] at hdepth
  have hread : ∀ l ∈ labels, Reads readLabelName (Ends isNameChar) l.text (id l) := fun l hl =>
    reads_labelName (hlabels l hl)
  have hstops : ∀ cs, Ends isNameChar (".".toList ++ cs) := fun _ => rfl
  have hmany := Reads.several hread (by decide) hstops
  rw [List.map_id] at hmany
  have hselected := (hmany.as record.selected).weaken fun rest hrest =>
    ⟨ends_isNameChar_of_isAtomPart hrest, after_of_expect (expect_dot_of_isAtomPart hrest)⟩
  refine (hfirst depth (by omega)).andThen hselected fun rest hrest => ?_
  cases labels with
  | nil => exact ends_isNameChar_of_isAtomPart hrest
  | cons l labels =>
      rw [List.map_cons, leadEach, String.append_assoc, String.toList_append]
      rfl

/-- The last label in a chain is the outermost one. -/
theorem selected_append (e : Expr ρ) (labels : List QualName) (label : QualName) :
    e.selected (labels ++ [label]) = made (.field (e.selected labels) (.generated label)) := by
  induction labels generalizing e with
  | nil => rfl
  | cons l labels ih => exact ih _

/-- A further label is read after those before it. -/
theorem ReadsHead.field (h : ReadsHead text e) {label : QualName} (hlabel : label.isLabel) :
    ReadsHead (text ++ "." ++ label.text) (made (.field e (.generated label))) := by
  obtain ⟨first, record, labels, hfirst, hlabels, rfl, rfl⟩ := h
  refine ⟨first, record, labels ++ [label], hfirst, ?_, ?_, (selected_append _ _ _).symm⟩
  · intro l hl
    obtain hl | hl := List.mem_append.1 hl
    · exact hlabels l hl
    · rwa [List.mem_singleton.1 hl]
  · simp only [List.map_append, List.map_cons, List.map_nil, leadEach_append, leadEach,
      String.append_empty, String.append_assoc]

/-- An atom is an element by itself. -/
theorem ReadsAtom.element (h : ReadsAtom text e) : ReadsElement text e := by
  intro depth hdepth
  obtain ⟨depth, rfl⟩ := Nat.exists_eq_add_of_lt hdepth
  have hread := h (text.length + depth) (by omega)
  have hrest : Reads (readRest (read (text.length + depth)) e) ElementClosing "" e :=
    fun rest hrest => readRest_of_closing hrest _ e
  have hstep : Reads (readElement (read (text.length + depth))) ElementClosing (text ++ "") e :=
    (hread.andThen hrest fun _ => ElementClosing.ends).first
  rwa [String.append_empty] at hstep

/-- An element is a body by itself, because its text ends earlier. -/
theorem ReadsElement.body (h : ReadsElement text e) : ReadsBody text e := by
  intro depth hdepth
  obtain ⟨depth, rfl⟩ := Nat.exists_eq_add_of_lt hdepth
  have hread : Reads (readElement (read (text.length + depth))) ElementClosing text e :=
    h (text.length + depth + 1) (by omega)
  have hrest : Reads (firstOf [after "; " (readAs (fun e' => made (.sequence e e'))
      (read (text.length + depth)).top), readNothing e]) BodyClosing "" e :=
    fun rest hrest =>
      firstOf_cons_of_none (after_of_expect (hrest.expect_eq_none (by decide)))
  have hstep : Reads (readSequence (read (text.length + depth))) BodyClosing (text ++ "") e :=
    hread.andThen hrest fun rest (hrest : BodyClosing rest) => hrest.element
  rw [String.append_empty] at hstep
  exact hstep.first

/-- And a body is an expression of any reach. -/
theorem ReadsBody.top (h : ReadsBody text e) : ReadsTop text e := fun depth hdepth =>
  (h depth hdepth).weaken fun _ => TopClosing.body

end

end Expr

end DeriveKit
