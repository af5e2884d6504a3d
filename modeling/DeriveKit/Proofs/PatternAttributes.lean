import DeriveKit.Proofs.Transparent

/-!
# DeriveKit.Proofs.PatternAttributes

The text of a transparent pattern shows all its attributes: `Pattern.told` compares the texts of two
patterns that differ in nothing else. `Pattern.Told` says of two patterns that their texts tell them
apart wherever both stand, also with other text behind.

There is one lemma for each form that has patterns inside, from `told_tuple` to `told_constraint`;
`PatternShape.told` puts them together.
-/

namespace DeriveKit

/-- The texts of two patterns tell them apart, wherever both stand. -/
def Pattern.Told (p p' : Pattern Payload) : Prop :=
  ∀ nested, Tells false (GoesOn True) (p.erase .places = p'.erase .places)
    (p.render Payload.text nested) (p'.render Payload.text nested)

/-! ## nodes and their forms -/

namespace PatternShape

/-- Whether the form stands in parentheses if something stands directly before it. -/
def wraps (nested : Bool) : PatternShape Payload → Bool
  | .constant value => nested && value.isNegative
  | .construct _ (some _) | .variant _ (some _) => nested
  | .any | .var _ | .aliased .. | .tuple _ | .construct _ none | .variant _ none | .record ..
  | .either .. | .constraint .. => false

/-- The position of a form decides about the parentheses around it and about nothing else. -/
theorem render_eq_parens (shape : PatternShape Payload) (nested : Bool) :
    shape.render Payload.text nested =
      parens (shape.wraps nested) (shape.render Payload.text false) := by
  cases shape with
  | any | var | aliased | tuple | record | either | constraint => rfl
  | constant => cases nested <;> rfl
  | construct name arg =>
      cases arg with
      | none => rfl
      | some arg =>
          rw [render, render]
          split <;> rfl
  | variant tag arg => cases arg <;> rfl

/-- Attributes play no part in it. -/
theorem wraps_of_stripped {shape shape' : PatternShape Payload}
    (h : shape.erase .nodeAttributes = shape'.erase .nodeAttributes) (nested : Bool) :
    shape.wraps nested = shape'.wraps nested := by
  have herase : ∀ shape : PatternShape Payload,
      (shape.erase .nodeAttributes).wraps nested = shape.wraps nested := by
    intro shape
    cases shape with
    | construct name arg => cases arg <;> rfl
    | variant tag arg => cases arg <;> rfl
    | any | var | aliased | constant | tuple | record | either | constraint => rfl
  rw [← herase shape, h, herase shape']

end PatternShape

/-- A node is its form, in brackets if it has attributes or something stands before it. -/
theorem Pattern.render_eq_nodeText (p : Pattern Payload) (nested : Bool) :
    p.render Payload.text nested =
      nodeText p.attributes (p.shape.wraps nested) (p.shape.render Payload.text false) := by
  obtain ⟨shape, span, attributes⟩ := p
  cases attributes with
  | nil => exact shape.render_eq_parens nested
  | cons a rest => rfl

/-- Erasing makes no pair and takes none apart. -/
theorem Pattern.isPair_erase (E : Erasure Payload Payload) (p : Pattern Payload) :
    (p.erase E).isPair = p.isPair := by
  obtain ⟨shape, span, attributes⟩ := p
  cases shape with
  | tuple elements => match elements with | [] | [_] | [_, _] | _ :: _ :: _ :: _ => rfl
  | any | var | aliased | constant | construct | variant | record | either | constraint => rfl

/-- A pair without attributes is its two parts. -/
theorem Pattern.exists_of_isPair {p : Pattern Payload} (h : p.isPair)
    (hattributes : p.attributes.isEmpty) : ∃ a b span, p = ⟨.tuple [a, b], span, []⟩ := by
  obtain ⟨shape, span, attributes⟩ := p
  obtain rfl := List.isEmpty_iff.1 hattributes
  rw [isPair] at h
  split at h
  case h_1 a b hshape => exact ⟨a, b, span, by rw [← hshape]⟩
  case h_2 => exact absurd h Bool.false_ne_true

/-! ## forms -/

/-- The texts of two forms of pattern tell them apart. -/
def PatternShape.Told (s s' : PatternShape Payload) : Prop :=
  Tells false (fun _ => True) (s.erase .places = s'.erase .places) (s.render Payload.text false)
    (s'.render Payload.text false)

/-- What is equal but for its place has the same value. -/
theorem Located.value_eq_of_erase {α : Type} {l l' : Located α} (h : l.erase = l'.erase) :
    l.value = l'.value := by
  have hvalue : l.erase.value = l'.erase.value := by rw [h]
  exact hvalue

namespace Pattern

variable {p p' q q' : Pattern Payload}

/-- A variable has no attributes besides those of its node. -/
theorem told_var {name name' : Located String} (hname : name.erase = name'.erase)
    (hleaf : isLeaf name.value) : PatternShape.Told (.var name) (.var name') := by
  have hvalue := Located.value_eq_of_erase hname
  simp only [PatternShape.Told, PatternShape.render, ← hvalue]
  exact .leaf (isSolid_of_isLeaf hleaf) (congrArg PatternShape.var hname)

/-- A constructor by itself is a word. -/
theorem told_constant {name name' : Located QualName} (hname : name.erase = name'.erase)
    (hleaf : isLeaf name.value.text) :
    PatternShape.Told (.construct name none) (.construct name' none) := by
  have hvalue := Located.value_eq_of_erase hname
  simp only [PatternShape.Told, PatternShape.render, ← hvalue]
  exact .leaf (isSolid_of_isLeaf hleaf) (congrArg (PatternShape.construct · none) hname)

/-- The name is the same in both, and what it follows is compared before it. -/
theorem told_aliased (h : p.Told p') {name name' : Located String}
    (hname : name.erase = name'.erase) :
    PatternShape.Told (.aliased p name) (.aliased p' name') := by
  have hvalue := Located.value_eq_of_erase hname
  simp only [PatternShape.Told, PatternShape.render, String.append_assoc, ← hvalue]
  have hnext : ∀ s, GoesOn True ((" as " ++ (name.value ++ ")")).toList ++ s) :=
    goesOn_append (by decide) (.inl trivial) _
  exact (((h false).follow hnext hnext (.refl trivial _)).bracket (by decide)).imp fun hQ =>
    congrArg₂ PatternShape.aliased hQ.1 hname

/-- The parts of a product are compared between the parentheses. -/
theorem told_tuple {ps ps' : List (Pattern Payload)} (h : List.Forall₂ Told ps ps') :
    PatternShape.Told (.tuple ps) (.tuple ps') := by
  have haligned : List.Forall₂ (fun p p' : Pattern Payload =>
      Aligned (p.erase .places = p'.erase .places) (p.render Payload.text false)
        (p'.render Payload.text false)) ps ps' := h.imp fun _ _ h => (h false).aligned
  simp only [PatternShape.Told, PatternShape.render, PatternShape.erase, renderAll_eq_map,
    eraseAll_eq_map, String.append_assoc]
  exact ((Tells.joinWith haligned (fun p hp p' hp' => forall₂_head? h p hp p' hp' false)
    ", " ")" (goesOn_append (by decide) (.inl trivial))
    (goesOn_of_clash (by decide) (.inl trivial)) (by decide)).bracket (by decide)).imp
    (congrArg PatternShape.tuple)

/-- Only the argument that is a pair is written with an infix sign. -/
theorem renderCons?_of_not_pair (h : p.isPair = false) : p.renderCons? Payload.text = none := by
  rw [renderCons?]
  rintro p q span attributes rfl
  exact absurd h (by simp [isPair])

/-- A constructor is written before its argument if both are not written with an infix sign. -/
theorem render_construct {name : Located QualName} (h : (name.value.isCons && p.isPair) = false) :
    PatternShape.render Payload.text false (.construct name (some p)) =
      name.value.text ++ (" " ++ p.render Payload.text true) := by
  rw [PatternShape.render, parens, if_neg Bool.false_ne_true, ← String.append_assoc]
  split
  case h_1 s hcons hpair =>
      rw [hcons, Bool.true_and] at h
      rw [renderCons?_of_not_pair h] at hpair
      exact absurd hpair nofun
  case h_2 => rfl

/-- A constructor is a word, and its argument follows. -/
theorem told_construct (h : p.Told p') {name name' : Located QualName}
    (hname : name.erase = name'.erase) (hleaf : isLeaf name.value.text)
    (hp : (name.value.isCons && p.isPair) = false)
    (hp' : (name'.value.isCons && p'.isPair) = false) :
    PatternShape.Told (.construct name (some p)) (.construct name' (some p')) := by
  have hvalue := Located.value_eq_of_erase hname
  rw [PatternShape.Told, render_construct hp, render_construct hp', ← hvalue]
  exact (Tells.word (isSolid_of_isLeaf hleaf) ((h true).aligned.lead " ")).imp fun hQ =>
    congrArg₂ (fun n p => PatternShape.construct n (some p)) hname hQ

/-- A head and a tail are written with an infix sign. -/
theorem told_cons (hp : p.Told p') (hq : q.Told q') {name name' : Located QualName}
    (hname : name.erase = name'.erase) (hcons : name.value.isCons) (span span' : Span) :
    PatternShape.Told (.construct name (some ⟨.tuple [p, q], span, []⟩))
      (.construct name' (some ⟨.tuple [p', q'], span', []⟩)) := by
  have hcons' : name'.value.isCons := Located.value_eq_of_erase hname ▸ hcons
  simp only [PatternShape.Told, PatternShape.render, renderCons?, hcons, hcons', parens,
    if_neg Bool.false_ne_true, String.append_assoc]
  have hnext : ∀ q : Pattern Payload, ∀ s,
      GoesOn True ((" :: " ++ q.render Payload.text false).toList ++ s) := fun _ =>
    goesOn_append (by decide) (.inl trivial) _
  refine ((hp true).follow (hnext q) (hnext q') ((hq false).aligned.lead " :: ")).imp fun hQ => ?_
  simp only [PatternShape.erase, eraseOption, erase, eraseAll, hQ.1, hQ.2, hname]

/-- A tag is a word, and its argument follows. -/
theorem told_variant (h : p.Told p') (tag : String) :
    PatternShape.Told (.variant tag (some p)) (.variant tag (some p')) := by
  simp only [PatternShape.Told, PatternShape.render, parens, if_neg Bool.false_ne_true,
    String.append_assoc]
  exact (Tells.word (by decide) (((h true).aligned.lead " ").lead tag)).imp fun hQ =>
    congrArg (fun p => PatternShape.variant tag (some p)) hQ

/-- A record is compared field by field; the labels are the same. -/
theorem told_record {fields fields' : List (Located QualName × Pattern Payload)}
    (h : List.Forall₂ (fun f f' => f.1.erase = f'.1.erase ∧ f.2.Told f'.2) fields fields')
    (openness : Openness) :
    PatternShape.Told (.record fields openness) (.record fields' openness) := by
  have hfields : List.Forall₂ (fun f f' : Located QualName × Pattern Payload =>
      Aligned ((f.1.erase, f.2.erase .places) = (f'.1.erase, f'.2.erase .places))
        (f.1.value.text ++ " = " ++ f.2.render Payload.text false)
        (f'.1.value.text ++ " = " ++ f'.2.render Payload.text false)) fields fields' := by
    refine h.imp fun f f' hf => ?_
    rw [Located.value_eq_of_erase hf.1]
    exact ((hf.2 false).aligned.lead _).imp fun hQ => Prod.ext hf.1 hQ
  simp only [PatternShape.Told, PatternShape.render, PatternShape.erase, renderFields_eq_map,
    eraseFields_eq_map, String.append_assoc] at hfields ⊢
  exact (Tells.word (by decide) ((Aligned.joinWith hfields "; ").trail _)).imp
    (congrArg (PatternShape.record · openness))

/-- The alternatives are compared on the two sides of the bar. -/
theorem told_either (hp : p.Told p') (hq : q.Told q') :
    PatternShape.Told (.either p q) (.either p' q') := by
  simp only [PatternShape.Told, PatternShape.render, String.append_assoc]
  have hnext : ∀ q : Pattern Payload, ∀ s,
      GoesOn True ((" | " ++ (q.render Payload.text false ++ ")")).toList ++ s) := fun _ =>
    goesOn_append (by decide) (.inl trivial) _
  exact (((hp false).follow (hnext q) (hnext q')
    (((hq false).aligned.trail ")").lead " | ")).bracket (by decide)).imp fun hQ =>
      congrArg₂ PatternShape.either hQ.1 hQ.2

/-- The type of a constraint is the same in both. -/
theorem told_constraint (h : p.Told p') {type type' : TypeExpr Payload}
    (htype : type.erase .places = type'.erase .places)
    (htext : type.render Payload.text .top = type'.render Payload.text .top) :
    PatternShape.Told (.constraint p type) (.constraint p' type') := by
  simp only [PatternShape.Told, PatternShape.render, String.append_assoc, ← htext]
  have hnext : ∀ s,
      GoesOn True ((" : " ++ (type.render Payload.text .top ++ ")")).toList ++ s) :=
    goesOn_append (by decide) (.inl trivial) _
  exact (((h false).follow hnext hnext (.refl trivial _)).bracket (by decide)).imp fun hQ =>
    congrArg₂ PatternShape.constraint hQ.1 htype

/-! ## all patterns -/

/-- Patterns smaller than `n` that differ in attributes only are told apart by their texts. -/
def ToldBelow (n : Nat) : Prop :=
  ∀ p p' : Pattern Payload, sizeOf p < n → p.isTransparent → p'.isTransparent →
    p.stripped = p'.stripped → p.Told p'

namespace ToldBelow

variable {n : Nat}

theorem mono {m : Nat} (ih : ToldBelow n) (h : m ≤ n) : ToldBelow m := fun p p' hp =>
  ih p p' (Nat.lt_of_lt_of_le hp h)

/-- The induction hypothesis, for patterns one after the other. -/
theorem all (ih : ToldBelow n) : ∀ {ps ps' : List (Pattern Payload)}, sizeOf ps ≤ n →
    allTransparent ps → allTransparent ps' →
    eraseAll .nodeAttributes ps = eraseAll .nodeAttributes ps' → List.Forall₂ Told ps ps'
  | [], [], _, _, _, _ => .nil
  | [], _ :: _, _, _, _, hs | _ :: _, [], _, _, _, hs => nomatch hs
  | p :: ps, p' :: ps', hsize, h, h', hs => by
      rw [allTransparent, Bool.and_eq_true] at h h'
      rw [List.cons.sizeOf_spec] at hsize
      obtain ⟨hp, hps⟩ := List.cons.inj hs
      exact .cons (ih p p' (by omega) h.1 h'.1 hp) (ih.all (by omega) h.2 h'.2 hps)

/-- The induction hypothesis, for the fields of a record. -/
theorem fields (ih : ToldBelow n) : ∀ {fields fields' : List (Located QualName × Pattern Payload)},
    sizeOf fields ≤ n → fieldsTransparent fields → fieldsTransparent fields' →
    eraseFields .nodeAttributes fields = eraseFields .nodeAttributes fields' →
    List.Forall₂ (fun f f' => f.1.erase = f'.1.erase ∧ f.2.Told f'.2) fields fields'
  | [], [], _, _, _, _ => .nil
  | [], _ :: _, _, _, _, hs | _ :: _, [], _, _, _, hs => nomatch hs
  | (label, p) :: rest, (label', p') :: rest', hsize, h, h', hs => by
      rw [fieldsTransparent, Bool.and_eq_true] at h h'
      rw [List.cons.sizeOf_spec, Prod.mk.sizeOf_spec] at hsize
      obtain ⟨hfield, hrest⟩ := List.cons.inj hs
      obtain ⟨hlabel, hp⟩ := Prod.mk.inj hfield
      exact .cons ⟨hlabel, ih p p' (by omega) h.1 h'.1 hp⟩ (ih.fields (by omega) h.2 h'.2 hrest)

/-- A constructor with its argument, written with an infix sign or not. -/
theorem constructed {p : Pattern Payload} (ih : ToldBelow n) (hsize : sizeOf p < n)
    {name name' : Located QualName} (hname : name.erase = name'.erase)
    (h : (PatternShape.construct name (some p)).isTransparent)
    (h' : (PatternShape.construct name' (some p')).isTransparent) (hs : p.stripped = p'.stripped) :
    PatternShape.Told (.construct name (some p)) (.construct name' (some p')) := by
  have hvalue := Located.value_eq_of_erase hname
  have hpairs : p.isPair = p'.isPair := by
    rw [← isPair_erase .nodeAttributes p, ← isPair_erase .nodeAttributes p']
    exact congrArg isPair hs
  simp only [PatternShape.isTransparent, Bool.and_eq_true] at h h'
  obtain ⟨⟨hleaf, hbare⟩, hp⟩ := h
  obtain ⟨⟨-, hbare'⟩, hp'⟩ := h'
  cases hpair : name.value.isCons && p.isPair with
  | false =>
      refine told_construct (ih p p' hsize hp hp' hs) hname hleaf hpair ?_
      rwa [← hvalue, ← hpairs]
  | true =>
      rw [← hvalue, ← hpairs, hpair, Bool.not_true, Bool.false_or] at hbare'
      rw [hpair, Bool.not_true, Bool.false_or] at hbare
      rw [Bool.and_eq_true] at hpair
      obtain ⟨a, b, span, rfl⟩ := exists_of_isPair hpair.2 hbare
      obtain ⟨a', b', span', rfl⟩ := exists_of_isPair (hpairs ▸ hpair.2) hbare'
      simp only [isTransparent, PatternShape.isTransparent, allTransparent,
        Bool.and_eq_true] at hp hp'
      simp only [mk.sizeOf_spec, PatternShape.tuple.sizeOf_spec, List.cons.sizeOf_spec] at hsize
      obtain ⟨ha, hrest⟩ := List.cons.inj (PatternShape.tuple.inj (congrArg shape hs))
      exact told_cons (ih a a' (by omega) hp.2.1 hp'.2.1 ha)
        (ih b b' (by omega) hp.2.2.1 hp'.2.2.1 (List.cons.inj hrest).1) hname hpair.1 span span'

end ToldBelow

end Pattern

/-- Forms that differ in attributes only are told apart by their texts, if the patterns inside
are. -/
theorem PatternShape.told {s s' : PatternShape Payload} (ih : Pattern.ToldBelow (sizeOf s))
    (h : s.isTransparent) (h' : s'.isTransparent)
    (hs : s.erase .nodeAttributes = s'.erase .nodeAttributes) : s.Told s' := by
  cases s with
  | any =>
      cases s' with
      | any => exact .leaf (by decide) rfl
      | _ => cases hs
  | var name =>
      cases s' with
      | var name' => exact Pattern.told_var (var.inj hs) h
      | _ => cases hs
  | aliased p name =>
      cases s' with
      | aliased p' name' =>
          obtain ⟨hp, hname⟩ := aliased.inj hs
          exact Pattern.told_aliased (ih p p' (by simp; omega) h h' hp) hname
      | _ => cases hs
  | constant value =>
      cases s' with
      | constant value' =>
          obtain rfl := constant.inj hs
          exact .leaf (isSolid_of_isLeaf h) rfl
      | _ => cases hs
  | tuple elements =>
      cases s' with
      | tuple elements' => exact Pattern.told_tuple (ih.all (by simp) h h' (tuple.inj hs))
      | _ => cases hs
  | construct name arg =>
      cases s' with
      | construct name' arg' =>
          obtain ⟨hname, harg⟩ := construct.inj hs
          cases arg with
          | none =>
              cases arg' with
              | none => exact Pattern.told_constant hname h
              | some p' => cases harg
          | some p =>
              cases arg' with
              | none => cases harg
              | some p' => exact ih.constructed (by simp; omega) hname h h' (Option.some.inj harg)
      | _ => cases hs
  | variant tag arg =>
      cases s' with
      | variant tag' arg' =>
          obtain ⟨rfl, harg⟩ := variant.inj hs
          cases arg with
          | none =>
              cases arg' with
              | none => exact .word (by decide) (.refl rfl tag)
              | some p' => cases harg
          | some p =>
              cases arg' with
              | none => cases harg
              | some p' =>
                  exact Pattern.told_variant
                    (ih p p' (by simp; omega) h h' (Option.some.inj harg)) tag
      | _ => cases hs
  | record fields openness =>
      cases s' with
      | record fields' openness' =>
          obtain ⟨hfields, rfl⟩ := record.inj hs
          exact Pattern.told_record (ih.fields (by simp; omega) h h' hfields) openness
      | _ => cases hs
  | either left right =>
      cases s' with
      | either left' right' =>
          obtain ⟨hleft, hright⟩ := either.inj hs
          rw [isTransparent, Bool.and_eq_true] at h h'
          exact Pattern.told_either (ih left left' (by simp; omega) h.1 h'.1 hleft)
            (ih right right' (by simp only [either.sizeOf_spec]; omega) h.2 h'.2 hright)
      | _ => cases hs
  | constraint p type =>
      cases s' with
      | constraint p' type' =>
          obtain ⟨hp, htype⟩ := constraint.inj hs
          rw [isTransparent, Bool.and_eq_true] at h h'
          obtain ⟨hplaces, htext⟩ := TypeExpr.same_of_stripped h.2 h'.2 htype
          exact Pattern.told_constraint (ih p p' (by simp; omega) h.1 h'.1 hp) hplaces (htext .top)
      | _ => cases hs

/-- Patterns of any size are told apart, by induction on the size: `PatternShape.told` is one step
of it. -/
theorem Pattern.toldBelow (n : Nat) : ToldBelow n := by
  induction n with
  | zero => exact fun _ _ hsize => absurd hsize (Nat.not_lt_zero _)
  | succ n ih =>
      intro p p' hsize h h' hs nested
      rw [render_eq_nodeText, render_eq_nodeText]
      obtain ⟨shape, span, attributes⟩ := p
      obtain ⟨shape', span', attributes'⟩ := p'
      rw [isTransparent, Bool.and_eq_true] at h h'
      rw [mk.sizeOf_spec] at hsize
      have hshape : shape.erase .nodeAttributes = shape'.erase .nodeAttributes :=
        congrArg Pattern.shape hs
      have hforms : shape.Told shape' :=
        PatternShape.told (ih.mono (by omega)) h.2 h'.2 hshape
      refine (hforms.framed h.1 h'.1 fun _ => PatternShape.wraps_of_stripped hshape nested).imp ?_
      rintro ⟨hplaces, hattributes⟩
      exact congrArg₂ (Pattern.mk · .generated ·) hplaces hattributes

/-- Transparent patterns that differ in attributes only are told apart by their texts. -/
theorem Pattern.told {p p' : Pattern Payload} (h : p.isTransparent) (h' : p'.isTransparent)
    (hs : p.stripped = p'.stripped) : p.Told p' :=
  toldBelow (sizeOf p + 1) p p' (Nat.lt_succ_self _) h h' hs

end DeriveKit
