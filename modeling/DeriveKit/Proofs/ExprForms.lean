import DeriveKit.Proofs.PatternAttributes
import DeriveKit.Text.Expr

/-!
# DeriveKit.Proofs.ExprForms

What the texts of two expressions tell about them, form by form: if the texts of the parts tell the
parts apart, so do the texts of the forms, and with them those of the nodes (`Expr.told_of_forms`).
A chain of list constructors without attributes is written as a list literal, and one with
attributes somewhere with infix signs; `Tells.list_framed` compares the two. A pair with attributes
stands in brackets behind the constructor of lists (`Expr.render_paired`); `Tells.heads_shifted`
compares it with one written with the infix sign, which needs the first word of the head.
-/

namespace DeriveKit

-- What is said here about forms starts from these equations.
attribute [grind =] Expr.render ExprShape.render ExprShape.renderElements? Expr.renderCons?
  Expr.erase ExprShape.erase

/-- The texts of two expressions tell them apart, wherever each of them stands. The wide view needs
to know how they begin. -/
def Expr.Told (e e' : Expr Payload) : Prop :=
  ∀ wide position position', (wide = true → e.isHeaded) →
    Tells wide (GoesOn (position = position')) (e.erase .places = e'.erase .places)
      (e.render Payload.text position) (e'.render Payload.text position')

namespace Expr.Told

variable {e e' : Expr Payload}

/-- If both stand in one position, what follows may be a closing bracket. -/
theorem same (h : e.Told e') (position : ExprPosition) {wide : Bool}
    (hheaded : wide = true → e.isHeaded) :
    Tells wide (GoesOn True) (e.erase .places = e'.erase .places) (e.render Payload.text position)
      (e'.render Payload.text position) :=
  (h wide position position hheaded).mono fun _ hs => ⟨hs.1, .inl rfl⟩

/-- Where they stand does not matter to where they end. -/
theorem aligned (h : e.Told e') (position position' : ExprPosition) :
    Aligned (e.erase .places = e'.erase .places) (e.render Payload.text position)
      (e'.render Payload.text position') := (h false position position' nofun).aligned

end Expr.Told

/-- The texts of two forms of expression tell them apart. -/
def ExprShape.Told (s s' : ExprShape Payload) : Prop :=
  ∀ wide, (wide = true → s.isHeaded) →
    Tells wide (fun _ => True) (s.erase .places = s'.erase .places) (s.render Payload.text .top)
      (s'.render Payload.text .top)

/-! ## nodes and their forms -/

namespace ExprShape

/-- Whether the form stands in parentheses in a position. -/
def wraps (position : ExprPosition) : ExprShape Payload → Bool
  | .constant value => position.splitsApply && value.isNegative
  | .letIn .. | .function _ | .lambda .. | .matchWith .. | .ifThenElse .. | .sequence ..
  | .openIn .. => position.isNested
  | .apply .. | .construct _ (some _) | .variant _ (some _) => position.splitsApply
  | .ident _ | .tuple _ | .construct _ none | .variant _ none | .record .. | .field ..
  | .constraint .. | .extension _ => false

/-- The position of a form decides about the parentheses around it and about nothing else. -/
theorem render_eq_parens (s : ExprShape Payload) (position : ExprPosition) :
    s.render Payload.text position =
      parens (s.wraps position) (s.render Payload.text .top) := by
  cases s with
  | ident | constant | letIn | function | lambda | apply | matchWith | tuple | field | sequence
  | constraint | openIn | extension => rfl
  | construct name arg => cases arg <;> rfl
  | variant tag arg => cases arg <;> rfl
  | record fields base => cases base <;> rfl
  | ifThenElse condition onTrue onFalse => cases onFalse <;> rfl

/-- Attributes play no part in it. -/
theorem wraps_of_stripped {s s' : ExprShape Payload}
    (h : s.erase .nodeAttributes = s'.erase .nodeAttributes) (position : ExprPosition) :
    s.wraps position = s'.wraps position := by
  have herase : ∀ s : ExprShape Payload,
      (s.erase .nodeAttributes).wraps position = s.wraps position := by
    intro s
    cases s with
    | construct name arg => cases arg <;> rfl
    | variant tag arg => cases arg <;> rfl
    | ident | constant | letIn | function | lambda | apply | matchWith | tuple | record | field
    | ifThenElse | sequence | constraint | openIn | extension => rfl
  rw [← herase s, h, herase s']

/-- The elements of a form that is written as a list literal when it has no attributes. -/
inductive Lists : ExprShape Payload → List (Expr Payload) → Prop
  | nil {name : Located QualName} (h : name.value.isNil) : Lists (.construct name none) []
  | cons {name : Located QualName} (h : name.value.isCons) (head : Expr Payload)
      {tail : ExprShape Payload} {elements : List (Expr Payload)} (htail : Lists tail elements)
      (span span' : Span) (attributes : List (Attribute Payload)) :
      Lists (.construct name (some ⟨.tuple [head, ⟨tail, span, []⟩], span', attributes⟩))
        (head :: elements)

/-- A form that is written as a list literal has the elements whose texts are written (`Lists`). -/
theorem lists_of_renderElements? {s : ExprShape Payload} {texts : List String}
    (h : s.renderElements? Payload.text = some texts) :
    ∃ elements, s.Lists elements ∧ texts = elements.map (Expr.render Payload.text .element) := by
  induction texts generalizing s with
  | nil =>
      rw [renderElements?.eq_def] at h
      split at h
      case h_1 name =>
          split at h
          case isTrue hnil => exact ⟨[], .nil hnil, rfl⟩
          case isFalse => exact absurd h nofun
      case h_2 =>
          split at h
          case isTrue =>
              split at h
              · exact absurd h (by simp)
              · exact absurd h nofun
          case isFalse => exact absurd h nofun
      case h_3 => exact absurd h nofun
  | cons text texts ih =>
      rw [renderElements?.eq_def] at h
      split at h
      case h_1 name => split at h <;> simp at h
      case h_2 name head tail span span' attributes =>
          split at h
          case isTrue hcons =>
              split at h
              case h_1 rest heq =>
                  obtain ⟨rfl, rfl⟩ := List.cons.inj (Option.some.inj h)
                  obtain ⟨elements, hlists, rfl⟩ := ih heq
                  exact ⟨head :: elements, .cons hcons head hlists span span' attributes, rfl⟩
              case h_2 => exact absurd h nofun
          case isFalse => exact absurd h nofun
      case h_3 => exact absurd h nofun

end ExprShape

theorem QualName.text_of_isNil {n : QualName} (h : n.isNil) : n.text = "[]" := by
  rw [isNil_iff.1 h]
  rfl

theorem QualName.text_of_isCons {n : QualName} (h : n.isCons) : n.text = "::" := by
  rw [isCons_iff.1 h]
  rfl

/-- A node is written as a list literal, or as its form and its attributes. -/
theorem Expr.list_or_nodeText (e : Expr Payload) :
    (∃ x xs, e.attributes = [] ∧ e.shape.Lists (x :: xs) ∧ ∀ position,
    e.render Payload.text position =
      "[" ++ (joinWith "; " ((x :: xs).map (render Payload.text .element)) ++ "]")) ∨
    ∀ position, e.render Payload.text position =
      nodeText e.attributes (e.shape.wraps position) (e.shape.render Payload.text .top) := by
  obtain ⟨shape, span, attributes⟩ := e
  cases attributes with
  | cons a rest => exact .inr fun _ => rfl
  | nil =>
      cases helements : shape.renderElements? Payload.text with
      | none =>
          refine .inr fun position => ?_
          rw [render, helements]
          exact shape.render_eq_parens position
      | some texts =>
          obtain ⟨elements, hlists, rfl⟩ := ExprShape.lists_of_renderElements? helements
          cases elements with
          | cons x xs =>
              refine .inl ⟨x, xs, rfl, hlists, fun position => ?_⟩
              rw [render, helements]
              exact String.append_assoc
          | nil =>
              refine .inr fun position => ?_
              obtain ⟨hnil⟩ := hlists
              rw [render, helements]
              exact (congrArg (nodeText [] false) (QualName.text_of_isNil hnil)).symm

/-! ## lists -/

/-- Two texts that are told apart as such are told apart also if one stands in square brackets and
the other in parentheses. -/
theorem Tells.list_framed {wide : Bool} {R : Prop} {t t' : String} {goesOn : List Char → Prop}
    (hapart : Tells wide (fun _ => True) False t t') (attributes : List (Attribute Payload))
    (wrap : Bool) : Tells wide goesOn R ("[" ++ t) (nodeText attributes wrap t') := by
  obtain ⟨rfl, rfl⟩ | hwrap := plain_or_wrapped attributes wrap
  · refine (plain_bracketed hapart.unshifted_symm hapart.unshifted (fun s s' _ heq => ?_)
      (by decide)).symm
    exact (hapart.aligned s' s heq.symm).1
  · rw [nodeText_of_wrapped hwrap]
    exact differently_bracketed (hapart.unshifted.append_right (fun _ _ => trivial) _)
      (hapart.unshifted_symm.append_left fun _ => trivial) (by decide) (by decide) (by decide)

section

variable {same Q R : Prop} {wide : Bool} {t t' u u' : String}

/-- Two texts that go on differently after parts that are told apart are told apart. -/
theorem Tells.heads_apart (h : Tells wide (GoesOn same) Q t t')
    (hu : ∀ s, GoesOn False (u.toList ++ s)) (hu' : ∀ s, GoesOn False (u'.toList ++ s))
    (hne : ∀ s s', u.toList ++ s ≠ u'.toList ++ s') :
    Tells wide (fun _ => True) False (t ++ u) (t' ++ u') :=
  (h.follow (fun s => (hu s).weaken) (fun s => (hu' s).weaken)
    fun s s' heq => absurd heq (hne s s')).imp And.right

/-- So are they if one of them is a pair behind the constructor of lists. -/
theorem Tells.heads_shifted (h : Tells true (GoesOn same) Q t t')
    (hu : ∀ s, GoesOn False (u.toList ++ s)) (hu' : ∀ s, GoesOn False (u'.toList ++ s))
    (hne : ∀ s s', u.toList ++ s ≠ u'.toList ++ s') :
    Tells wide (fun _ => True) False (":: ((" ++ (t ++ u)) (t' ++ u') :=
  (h.shifted (by decide) (by decide) (fun s => (hu s).weaken) (fun s => (hu' s).weaken) hne).narrow

end

/-- Behind the constructor of lists texts are told apart as before. It is a word to those who look
at brackets only, and an opening in the wide view. -/
theorem Tells.behind_cons {wide : Bool} {Q : Prop} {t t' : String}
    (h : Tells wide (fun _ => True) Q t t') :
    Tells wide (fun _ => True) Q (":: " ++ t) (":: " ++ t') := by
  cases wide with
  | true => exact h.openings (by decide)
  | false => exact .word (by decide) h.aligned

/-- Expressions smaller than `n` that differ in attributes only are told apart by their texts. -/
def Expr.ToldBelow (n : Nat) : Prop :=
  ∀ e e' : Expr Payload, sizeOf e < n → e.isTransparent → e'.isTransparent →
    e.stripped = e'.stripped → e.Told e'

namespace Expr

/-- Erasing makes no pair and takes none apart. -/
theorem isPair_erase (E : Erasure Payload Payload) (e : Expr Payload) :
    (e.erase E).isPair = e.isPair := by
  obtain ⟨shape, span, attributes⟩ := e
  cases shape with
  | tuple elements => match elements with | [] | [_] | [_, _] | _ :: _ :: _ :: _ => rfl
  | ident | constant | letIn | function | lambda | apply | matchWith | construct | variant | record
  | field | ifThenElse | sequence | constraint | openIn | extension => rfl

theorem isPair_of_stripped {e e' : Expr Payload} (h : e.stripped = e'.stripped) :
    e.isPair = e'.isPair := by
  rw [← isPair_erase .nodeAttributes e, ← isPair_erase .nodeAttributes e']
  exact congrArg isPair h

/-- A pair is its two parts, whatever its attributes. -/
theorem exists_of_isPair {e : Expr Payload} (h : e.isPair) :
    ∃ a b span attributes, e = ⟨.tuple [a, b], span, attributes⟩ := by
  obtain ⟨shape, span, attributes⟩ := e
  rw [isPair] at h
  split at h
  case h_1 a b hshape => exact ⟨a, b, span, attributes, by rw [← hshape]⟩
  case h_2 => exact absurd h Bool.false_ne_true

/-- Only a pair without attributes is written with an infix sign. -/
theorem renderCons?_of_not_pair {e : Expr Payload}
    (h : (e.isPair && e.attributes.isEmpty) = false) :
    e.renderCons? Payload.text = none := by
  rw [renderCons?]
  rintro a b span rfl
  exact absurd h (by simp [isPair])

/-- A constructor is written before its argument if both are not written with an infix sign. -/
theorem render_construct {e : Expr Payload} {name : Located QualName}
    (h : (name.value.isCons && (e.isPair && e.attributes.isEmpty)) = false) :
    ExprShape.render Payload.text .top (.construct name (some e)) =
      name.value.text ++ (" " ++ e.render Payload.text .atom) := by
  rw [ExprShape.render, ExprPosition.splitsApply, parens, if_neg Bool.false_ne_true,
    ← String.append_assoc]
  obtain hcons | hpair := Bool.and_eq_false_iff.1 h
  · rw [hcons]
  · rw [renderCons?_of_not_pair hpair]
    cases name.value.isCons <;> rfl

/-- A constructor is written before what is no pair, and any constructor but that of lists is
written before its argument. -/
theorem render_construct_of_not_pair {e : Expr Payload} {name : Located QualName}
    (h : (name.value.isCons && e.isPair) = false) :
    ExprShape.render Payload.text .top (.construct name (some e)) =
      name.value.text ++ (" " ++ e.render Payload.text .atom) :=
  render_construct (by rw [← Bool.and_assoc, h, Bool.false_and])

/-- A head and a tail are written with an infix sign. -/
theorem render_cons {name : Located QualName} (h : name.value.isCons) (a b : Expr Payload)
    (span : Span) :
    ExprShape.render Payload.text .top (.construct name (some ⟨.tuple [a, b], span, []⟩)) =
      a.render Payload.text .atom ++ (" :: " ++ b.render Payload.text .element) := by
  simp only [ExprShape.render, h, renderCons?, String.append_assoc]
  rfl

/-- A pair with attributes is written behind the constructor of lists, with its attributes. -/
theorem render_paired {name : Located QualName} (h : name.value.isCons) (a b : Expr Payload)
    (span : Span) {attributes : List (Attribute Payload)} (hne : attributes ≠ []) :
    ExprShape.render Payload.text .top (.construct name (some ⟨.tuple [a, b], span, attributes⟩)) =
      ":: " ++ nodeText attributes false ((ExprShape.tuple [a, b]).render Payload.text .top) := by
  obtain ⟨x, rest, rfl⟩ := List.exists_cons_of_ne_nil hne
  rw [render_construct (by simp), QualName.text_of_isCons h, ← String.append_assoc]
  rfl

end Expr

/-! ## how an expression begins, by its form -/

mutual

/-- Erasing changes no words, so an expression begins as before. -/
theorem Expr.isHeaded_erase (E : Erasure Payload Payload) :
    ∀ e : Expr Payload, (e.erase E).isHeaded = e.isHeaded
  | ⟨shape, _, _⟩ => ExprShape.isHeaded_erase E shape

/-- Nor does a form begin otherwise. -/
theorem ExprShape.isHeaded_erase (E : Erasure Payload Payload) :
    ∀ shape : ExprShape Payload, (shape.erase E).isHeaded = shape.isHeaded
  | .ident _ | .constant _ | .construct _ none | .letIn .. | .function _ | .lambda ..
  | .matchWith .. | .tuple [] | .variant .. | .record .. | .ifThenElse .. | .openIn ..
  | .extension _ => rfl
  | .construct name (some arg) => by
      rw [ExprShape.erase, Expr.eraseOption, ExprShape.isHeaded, ExprShape.isHeaded,
        Expr.isPair_erase, Expr.isHeaded_erase E arg]
      rfl
  | .apply first _ | .field first _ | .sequence first _ | .constraint first _
  | .tuple (first :: _) => Expr.isHeaded_erase E first

end

theorem Expr.isHeaded_of_stripped {e e' : Expr Payload} (h : e.stripped = e'.stripped) :
    e.isHeaded = e'.isHeaded := by
  rw [← isHeaded_erase .nodeAttributes e, ← isHeaded_erase .nodeAttributes e']
  exact congrArg isHeaded h

/-- The form of a transparent expression is transparent. -/
theorem Expr.isTransparent_shape {shape : ExprShape Payload} {span : Span}
    {attributes : List (Attribute Payload)} (h : isTransparent ⟨shape, span, attributes⟩) :
    shape.isTransparent := by
  rw [isTransparent, Bool.and_eq_true] at h
  exact h.2

/-- A pair behind the constructor of lists begins as the pair does. -/
theorem Expr.isHeaded_construct_pair {name : Located QualName} (h : name.value.isCons)
    (a b : Expr Payload) (span : Span) (attributes : List (Attribute Payload)) :
    (ExprShape.construct name (some ⟨.tuple [a, b], span, attributes⟩)).isHeaded = a.isHeaded := by
  rw [ExprShape.isHeaded, h, isPair, Bool.true_and, if_pos rfl]
  rfl

namespace ExprShape.Lists

variable {s s' : ExprShape Payload} {xs xs' : List (Expr Payload)}

/-- What a list literal hides are the attributes of its pairs, the first one and the others. -/
theorem hiddenAttributes_cons {name : Located QualName} (hcons : name.value.isCons)
    (head : Expr Payload) {tail : ExprShape Payload} (htail : tail.Lists xs) (span span' : Span)
    (attributes : List (Attribute Payload)) :
    hiddenAttributes
        (.construct name (some ⟨.tuple [head, ⟨tail, span, []⟩], span', attributes⟩)) =
      attributes ++ tail.hiddenAttributes := by
  have hspine : ∀ {tail : ExprShape Payload} {xs : List (Expr Payload)}, tail.Lists xs →
      ∃ found, hiddenAttributes.spineAttributes? tail = some found := by
    intro tail xs h
    induction h with
    | nil hnil => exact ⟨[], by simp [hiddenAttributes.spineAttributes?, hnil]⟩
    | cons hcons head _ _ _ attributes ih =>
        obtain ⟨found, ih⟩ := ih
        exact ⟨attributes ++ found, by simp [hiddenAttributes.spineAttributes?, hcons, ih]⟩
  obtain ⟨found, hfound⟩ := hspine htail
  simp [hiddenAttributes, hiddenAttributes.spineAttributes?, hcons, hfound]

/-- The head and the tail of a transparent list are transparent. -/
theorem transparent_cons {name : Located QualName} {head tail : Expr Payload} {span : Span}
    {attributes : List (Attribute Payload)}
    (h : ExprShape.isTransparent (.construct name (some ⟨.tuple [head, tail], span, attributes⟩))) :
    head.isTransparent ∧ tail.isTransparent := by
  simp only [ExprShape.isTransparent, Expr.isTransparent, Expr.allTransparent, Bool.and_true,
    Bool.and_eq_true] at h
  exact h.2.2

/-- Lists of which the nodes differ in attributes only have elements that do. -/
theorem told {n : Nat} (ih : Expr.ToldBelow n) (hl : s.Lists xs) (hl' : s'.Lists xs')
    (hsize : sizeOf s ≤ n) (hbare : s.hiddenAttributes = []) (hbare' : s'.hiddenAttributes = [])
    (h : s.isTransparent) (h' : s'.isTransparent)
    (hs : s.erase .nodeAttributes = s'.erase .nodeAttributes) :
    List.Forall₂ Expr.Told xs xs' ∧
      (xs.map (Expr.erase .places) = xs'.map (Expr.erase .places) →
        s.erase .places = s'.erase .places) := by
  induction hl generalizing s' xs' with
  | nil hnil =>
      cases hl' with
      | nil hnil' =>
          exact ⟨.nil, fun _ =>
            congrArg (ExprShape.construct · none) (ExprShape.construct.inj hs).1⟩
      | cons => exact nomatch (ExprShape.construct.inj hs).2
  | @cons name hcons head tail elements htail span span₁ attributes ihtail =>
      cases hl' with
      | nil => exact nomatch (ExprShape.construct.inj hs).2
      | @cons name' hcons' head' tail' elements' htail' span' span₁' attributes' =>
          rw [hiddenAttributes_cons hcons head htail, List.append_eq_nil_iff] at hbare
          rw [hiddenAttributes_cons hcons' head' htail', List.append_eq_nil_iff] at hbare'
          obtain ⟨rfl, hbare⟩ := hbare
          obtain ⟨rfl, hbare'⟩ := hbare'
          obtain ⟨hhead, htransparent⟩ := transparent_cons h
          obtain ⟨hhead', htransparent'⟩ := transparent_cons h'
          obtain ⟨hname, harg⟩ := ExprShape.construct.inj hs
          obtain ⟨hheads, hrest⟩ :=
            List.cons.inj (ExprShape.tuple.inj (congrArg Expr.shape (Option.some.inj harg)))
          have htails : tail.erase .nodeAttributes = tail'.erase .nodeAttributes :=
            congrArg Expr.shape (List.cons.inj hrest).1
          simp only [ExprShape.construct.sizeOf_spec, Option.some.sizeOf_spec, Expr.mk.sizeOf_spec,
            ExprShape.tuple.sizeOf_spec, List.cons.sizeOf_spec] at hsize
          obtain ⟨helements, hsame⟩ := ihtail htail' (by omega) hbare hbare'
            (Expr.isTransparent_shape htransparent)
            (Expr.isTransparent_shape htransparent') htails
          refine ⟨.cons (ih head head' (by omega) hhead hhead' hheads) helements, fun hmap => ?_⟩
          obtain ⟨hheads, hmap⟩ := List.cons.inj hmap
          simp only [ExprShape.erase, Expr.eraseOption, Expr.erase, Expr.eraseAll, hname,
            hsame hmap]
          rw [hheads]

/-- An element is smaller than the list. -/
theorem sizeOf_lt {x : Expr Payload} (hl : s.Lists (x :: xs)) : sizeOf x < sizeOf s := by
  cases hl with
  | cons =>
      simp only [ExprShape.construct.sizeOf_spec, Option.some.sizeOf_spec, Expr.mk.sizeOf_spec,
        ExprShape.tuple.sizeOf_spec, List.cons.sizeOf_spec]
      omega

/-- The elements of a transparent list are transparent. -/
theorem isTransparent {x : Expr Payload} (hl : s.Lists (x :: xs)) (h : s.isTransparent) :
    x.isTransparent := by
  cases hl with
  | cons => exact (transparent_cons h).1

/-- A list begins as its first element does. -/
theorem isHeaded {x : Expr Payload} (hl : s.Lists (x :: xs)) : s.isHeaded = x.isHeaded := by
  cases hl with
  | cons hcons => exact Expr.isHeaded_construct_pair hcons x _ _ _

/-- A form that differs in attributes from the form of a list is a head and a tail, too. -/
theorem exists_pair {x : Expr Payload} (hl : s.Lists (x :: xs))
    (hs : s.erase .nodeAttributes = s'.erase .nodeAttributes) :
    ∃ name x' t' span attributes, name.value.isCons ∧ x.stripped = x'.stripped ∧
      s' = .construct name (some ⟨.tuple [x', t'], span, attributes⟩) := by
  obtain _ | @⟨name, hcons, _, tail, _, htail, span, span₁, attributes⟩ := hl
  cases s' with
  | construct name' arg' =>
      obtain ⟨hname, harg⟩ := ExprShape.construct.inj hs
      cases arg' with
      | none => cases harg
      | some pair' =>
          have hpair : pair'.isPair := (Expr.isPair_of_stripped (Option.some.inj harg)).symm
          obtain ⟨x', t', span', attributes', rfl⟩ := Expr.exists_of_isPair hpair
          exact ⟨name', x', t', span', attributes', Located.value_eq_of_erase hname ▸ hcons,
            (List.cons.inj (ExprShape.tuple.inj (congrArg Expr.shape (Option.some.inj harg)))).1,
            rfl⟩
  | _ => cases hs

end ExprShape.Lists

/-- What follows the first element of a list is no attribute of it. -/
theorem goesOn_elements (xs : List (Expr Payload)) (s : List Char) :
    GoesOn False
      ((leadEach "; " (xs.map (Expr.render Payload.text .element)) ++ "]").toList ++ s) := by
  cases xs with
  | nil => exact goesOn_of_clash (by decide) (.inr (by decide)) s
  | cons x xs =>
      rw [List.map_cons, leadEach, String.append_assoc, String.append_assoc]
      exact goesOn_append (by decide) (.inr (by decide)) _ s

/-- It is not what follows the head of a list that is no literal, either: `;` or `]` is not `::`,
nor the comma in a pair. -/
theorem elements_ne_tail (xs : List (Expr Payload)) {w : String} (hw : w ∈ [" :: ", ", "])
    (t : String) (s s' : List Char) :
    (leadEach "; " (xs.map (Expr.render Payload.text .element)) ++ "]").toList ++ s ≠
      (w ++ t).toList ++ s' := by
  simp only [List.mem_cons, List.not_mem_nil, or_false] at hw
  obtain rfl | rfl := hw <;> cases xs <;> simp [leadEach]

namespace Expr

variable {x x' : Expr Payload} {wide : Bool}

/-- The text of a pair with attributes begins with its head, in parentheses twice. -/
theorem exists_render_paired {name : Located QualName} (h : name.value.isCons) (a b : Expr Payload)
    (span : Span) {attributes : List (Attribute Payload)} (hne : attributes ≠ []) :
    ∃ t, ExprShape.render Payload.text .top
        (.construct name (some ⟨.tuple [a, b], span, attributes⟩)) =
      ":: ((" ++ (a.render Payload.text .element ++ (", " ++ t)) := by
  refine ⟨b.render Payload.text .element ++ (")" ++
    (Attribute.renderAll Payload.text "@" attributes ++ ")")), ?_⟩
  rw [render_paired h a b span hne, nodeText_of_wrapped (.inl hne)]
  apply String.toList_injective
  simp [ExprShape.render, renderAll, joinWith]

end Expr

/-- A list literal is told apart from a list that is no literal. -/
theorem ExprShape.Lists.told_nodeText {s s' : ExprShape Payload} {x : Expr Payload}
    {xs : List (Expr Payload)} (hl : s.Lists (x :: xs)) (h : s.isTransparent)
    (h' : s'.isTransparent) (hs : s.erase .nodeAttributes = s'.erase .nodeAttributes)
    {wide : Bool} (hheaded : wide = true → x.isHeaded)
    (hheads : ∀ x' : Expr Payload, sizeOf x' < sizeOf s' → x.isTransparent → x'.isTransparent →
      x.stripped = x'.stripped → ∀ wide position, (wide = true → x.isHeaded) →
        Tells wide (GoesOn False) True (x.render Payload.text .element)
          (x'.render Payload.text position))
    (attributes : List (Attribute Payload)) (wrap : Bool) {goesOn : List Char → Prop} {Q : Prop} :
    Tells wide goesOn Q
      ("[" ++ (joinWith "; " ((x :: xs).map (Expr.render Payload.text .element)) ++ "]"))
      (nodeText attributes wrap (s'.render Payload.text .top)) := by
  obtain ⟨name, x', t', span, pair, hcons, hstripped, rfl⟩ := hl.exists_pair hs
  have hx' := (transparent_cons h').1
  have htold := hheads x' (by simp; omega) (hl.isTransparent h) hx' hstripped
  rw [List.map_cons, joinWith_cons, String.append_assoc]
  refine .list_framed ?_ attributes wrap
  obtain rfl | hne := eq_or_ne pair []
  · rw [Expr.render_cons hcons]
    exact (htold wide .atom hheaded).heads_apart (goesOn_elements xs)
      (goesOn_append (by decide) (.inr (by decide)) _) (elements_ne_tail xs (by decide) _)
  · obtain ⟨t, ht⟩ := Expr.exists_render_paired hcons x' t' span hne
    have hx : x.isHeaded := by
      simp only [ExprShape.isTransparent, Expr.isPair, hcons, Bool.and_eq_true] at h'
      rw [Expr.isHeaded_of_stripped hstripped]
      simpa [hne, Expr.isHeaded, ExprShape.isHeaded] using h'.1.2
    rw [ht]
    exact ((htold true .element fun _ => hx).symm.heads_shifted
      (goesOn_append (by decide) (.inr (by decide)) _) (goesOn_elements xs)
      fun s s' heq => elements_ne_tail xs (by decide) _ s' s heq.symm).symm

/-- Nodes are told apart by their texts if their forms are. -/
theorem Expr.told_of_forms {s s' : ExprShape Payload}
    {attributes attributes' : List (Attribute Payload)} {span span' : Span}
    (ih : ToldBelow (sizeOf s)) (h : isTransparent ⟨s, span, attributes⟩)
    (h' : isTransparent ⟨s', span', attributes'⟩)
    (hs : s.erase .nodeAttributes = s'.erase .nodeAttributes) (hforms : s.Told s') :
    Told ⟨s, span, attributes⟩ ⟨s', span', attributes'⟩ := by
  intro wide position position' hheaded
  have hplaces : s.erase .places = s'.erase .places →
      Attribute.eraseAll .places attributes = Attribute.eraseAll .places attributes' →
      erase .places ⟨s, span, attributes⟩ = erase .places ⟨s', span', attributes'⟩ :=
    fun hshapes hattributes => congrArg₂ (Expr.mk · .generated ·) hshapes hattributes
  rw [isTransparent, Bool.and_eq_true, Bool.and_eq_true] at h h'
  obtain ⟨⟨hflags, hbare⟩, h⟩ := h
  obtain ⟨⟨hflags', hbare'⟩, h'⟩ := h'
  obtain ⟨x, xs, hnone, hl, hrender⟩ | hrender := list_or_nodeText ⟨s, span, attributes⟩ <;>
    obtain ⟨x', xs', hnone', hl', hrender'⟩ | hrender' :=
      list_or_nodeText ⟨s', span', attributes'⟩ <;>
    rw [hrender, hrender']
  · obtain rfl : attributes = [] := hnone
    obtain rfl : attributes' = [] := hnone'
    obtain ⟨hall, hsame⟩ := hl.told ih hl' (Nat.le_refl _) (List.isEmpty_iff.1 hbare)
      (List.isEmpty_iff.1 hbare') h h' hs
    have haligned : List.Forall₂ (fun x x' : Expr Payload =>
        Aligned (x.erase .places = x'.erase .places) (x.render Payload.text .element)
          (x'.render Payload.text .element)) (x :: xs) (x' :: xs') :=
      hall.imp fun x x' hx => hx.aligned .element .element
    have hfirst : ∀ y ∈ (x :: xs).head?, ∀ y' ∈ (x' :: xs').head?,
        Tells wide (GoesOn (ExprPosition.element = .element)) (y.erase .places = y'.erase .places)
          (y.render Payload.text .element) (y'.render Payload.text .element) := by
      rintro _ ⟨⟩ _ ⟨⟩
      exact (List.forall₂_cons.1 hall).1 wide .element .element fun hwide =>
        hl.isHeaded ▸ hheaded hwide
    exact ((Tells.joinWith haligned hfirst "; " "]" (goesOn_append (by decide) (.inl rfl))
      (goesOn_of_clash (by decide) (.inl rfl)) (by decide)).bracket (by decide)).imp
        fun hmap => hplaces (hsame hmap) rfl
  · refine hl.told_nodeText h h' hs (fun hwide => hl.isHeaded ▸ hheaded hwide)
      (fun y _ hx hy hxy wide position hx' => ?_) _ _
    exact ((ih x y hl.sizeOf_lt hx hy hxy wide .element position hx').imp fun _ => trivial).mono
      fun s hs => hs.weaken
  · refine (hl'.told_nodeText h' h hs.symm (fun hwide => ?_)
      (fun y hy hx' hyt hxy wide position hx => ?_) _ _).symm
    · rw [← hl'.isHeaded, ← ExprShape.isHeaded_erase .nodeAttributes s', ← hs,
        ExprShape.isHeaded_erase]
      exact hheaded hwide
    · exact ((ih y x' hy hyt hx' hxy.symm wide position .element fun hwide =>
        isHeaded_of_stripped hxy ▸ hx hwide).symm.imp fun _ => trivial).mono fun s hs => hs.weaken
  · refine (Tells.framed hflags hflags' (fun heq => ?_) (hforms wide hheaded)).imp
      fun hQ => hplaces hQ.1 hQ.2
    rw [ExprShape.wraps_of_stripped hs, heq]

/-! ## how an expression begins -/

/-- A node does not begin as an attribute does if its form does not. -/
theorem isMild_nodeText {t : String} (h : isMild t) (attributes : List (Attribute Payload))
    (wrap : Bool) : isMild (nodeText attributes wrap t) := by
  obtain ⟨rfl, rfl⟩ | hwrap := plain_or_wrapped attributes wrap
  · exact h
  · rw [nodeText_of_wrapped hwrap]
    exact isMild_append (by decide) _

/-- No transparent form begins as an attribute does; most begin with a keyword or a bracket, the
others with a part. -/
theorem ExprShape.isMild_render {s : ExprShape Payload}
    (ih : ∀ e : Expr Payload, sizeOf e < sizeOf s → e.isTransparent → ∀ position,
      isMild (e.render Payload.text position))
    (h : s.isTransparent) : isMild (s.render Payload.text .top) := by
  cases s with
  | ident name => exact isMild_of_isLeaf h
  | constant value => exact isMild_of_isLeaf h
  | letIn | function | lambda | matchWith | tuple | constraint | openIn =>
      simp only [render, parens, ExprPosition.isNested, OpenDecl.renderLocal,
        if_neg Bool.false_ne_true, String.append_assoc]
      exact isMild_append (by decide) _
  | extension ext =>
      simp only [render, Extension.render, String.append_assoc]
      exact isMild_bracket (isMild_append (by decide) _)
  | apply function args =>
      simp only [isTransparent, Bool.and_eq_true] at h
      exact isMild_append (ih function (by simp; omega) h.2.1 .atom) _
  | construct name arg =>
      cases arg with
      | none => exact isMild_of_isLeaf h
      | some arg =>
          simp only [isTransparent, Bool.and_eq_true] at h
          cases hpair : name.value.isCons && (arg.isPair && arg.attributes.isEmpty) with
          | false =>
              rw [Expr.render_construct hpair]
              exact isMild_append (isMild_of_isLeaf h.1.1) _
          | true =>
              rw [Bool.and_eq_true, Bool.and_eq_true] at hpair
              obtain ⟨a, b, span, attributes, rfl⟩ := Expr.exists_of_isPair hpair.2.1
              obtain rfl : attributes = [] := List.isEmpty_iff.1 hpair.2.2
              rw [Expr.render_cons hpair.1]
              simp only [Expr.isTransparent, isTransparent, Expr.allTransparent,
                Bool.and_eq_true] at h
              exact isMild_append (ih a (by simp; omega) h.2.2.1 .atom) _
  | variant tag arg =>
      cases arg with
      | none => exact isMild_append (by decide) tag
      | some arg =>
          simp only [render, parens, ExprPosition.splitsApply, if_neg Bool.false_ne_true,
            String.append_assoc]
          exact isMild_append (by decide) _
  | record fields base =>
      cases base <;> simp only [render, String.append_assoc] <;> exact isMild_append (by decide) _
  | field record label =>
      exact isMild_append (isMild_append (ih record (by simp; omega) h .atom) ".") _
  | ifThenElse condition onTrue onFalse =>
      cases onFalse <;>
        simp only [render, parens, ExprPosition.isNested, if_neg Bool.false_ne_true,
          String.append_assoc] <;>
        exact isMild_append (by decide) _
  | sequence first second =>
      rw [isTransparent, Bool.and_eq_true] at h
      exact isMild_append (isMild_append (ih first (by simp; omega) h.1 .element) "; ") _

/-- So no transparent expression does. This keeps a list literal from being taken for an attribute,
which begins with a bracket, too. -/
theorem Expr.isMild_render {e : Expr Payload} (h : e.isTransparent) (position : ExprPosition) :
    isMild (e.render Payload.text position) := by
  suffices hall : ∀ (n : Nat) (e : Expr Payload), sizeOf e < n → e.isTransparent →
      ∀ position, isMild (e.render Payload.text position) from
    hall (sizeOf e + 1) e (Nat.lt_succ_self _) h position
  intro n
  induction n with
  | zero => exact fun _ hsize => absurd hsize (Nat.not_lt_zero _)
  | succ n ih =>
      rintro ⟨shape, span, attributes⟩ hsize h position
      rw [isTransparent, Bool.and_eq_true] at h
      rw [mk.sizeOf_spec] at hsize
      obtain ⟨x, xs, -, hl, hrender⟩ | hrender := list_or_nodeText ⟨shape, span, attributes⟩
      · rw [hrender, List.map_cons, joinWith_cons, String.append_assoc]
        have hx : sizeOf x < sizeOf shape := hl.sizeOf_lt
        exact isMild_bracket (isMild_append (ih x (by omega) (hl.isTransparent h.2) .element) _)
      · rw [hrender]
        refine isMild_nodeText (ExprShape.isMild_render (fun e he => ih e (by omega)) h.2) _ _

end DeriveKit
