import DeriveKit.Proofs.OpenForms

/-!
# DeriveKit.Proofs.ExprText

The text of an expression says which expression it is.

* `Expr.readsIn` — what is read off the text of an expression in any position is the expression, but
  for where it was written;
* `ExprShape.readsElements` — a list literal is read as the chain of constructors it stands for;
* `Expr.ofText_text` — the text as a whole is read up to its end;
* `expressions_are_unambiguous` — the result: a reader gives every expression back, so no two
  expressions have the same text.
-/

namespace DeriveKit

/-! ## parts of a node -/

/-- A legible expression has no attributes, since only its form is read. -/
theorem Expr.isEmpty_of_isLegible {e : Expr Payload} (h : e.isLegible) : e.attributes.isEmpty := by
  obtain ⟨shape, span, attributes⟩ := e
  rw [isLegible, Bool.and_eq_true] at h
  exact h.1

/-- No argument belongs to an expression that can be applied. -/
theorem Expr.attach?_of_isHead {π ρ : Type} {e : Expr π} (h : e.isHead) (E : Erasure π ρ) :
    (e.erase E).attach? = none := by
  obtain ⟨shape, span, attributes⟩ := e
  cases shape with
  | construct name arg | variant tag arg =>
      cases arg with
      | none => exact absurd h Bool.false_ne_true
      | some arg => rfl
  | ident | constant | letIn | function | lambda | apply | matchWith | tuple | record | field
  | ifThenElse | sequence | constraint | openIn | extension => rfl

/-- A case is read if its guard and its body are. -/
theorem Case.readsCase {pattern : Pattern Payload} (hpattern : pattern.isLegible)
    {guard : Option (Expr Payload)}
    (hguard : ∀ g ∈ guard, Expr.ReadsTop (g.render Payload.text .top) (g.erase .places))
    {body : Expr Payload} {position : ExprPosition} {stops : List Char → Prop}
    (hbody : ∀ depth, (body.render Payload.text position).length < depth →
      Reads (Expr.read depth).top stops (body.render Payload.text position) (body.erase .places)) :
    Expr.ReadsCase stops (Case.render Payload.text position ⟨pattern, guard, body⟩)
      (Case.erase .places ⟨pattern, guard, body⟩) := by
  have hread := Pattern.readsAt pattern hpattern false
  cases guard with
  | none => exact Expr.readsCase_plain hread hbody
  | some guard => exact Expr.readsCase_guarded hread (hguard guard rfl) hbody

/-- A parameter is read if its default is. Only an optional one has a default. -/
theorem Expr.readsTop_param {label : ArgLabel} (hlabel : label.isNamed)
    {default : Option (Expr Payload)} (hdefault : label.isOptional || default.isNone)
    (hread : ∀ d ∈ default, ReadsTop (d.render Payload.text .top) (d.erase .places))
    {param : Pattern Payload} (hparam : param.isLegible) {body : Expr Payload}
    (hbody : ReadsTop (body.render Payload.text .top) (body.erase .places)) :
    ReadsTop (ExprShape.render Payload.text .top (.lambda label default param body))
      (made (ExprShape.erase .places (.lambda label default param body))) := by
  have hatom := Pattern.readsAt param hparam true
  have hpattern := Pattern.readsAt param hparam false
  cases default with
  | none =>
      exact readsTop_lambda hlabel (fun depth _ => reads_readParam hatom (read depth))
        (unlabelled_param hatom) hbody
  | some d =>
      cases label with
      | positional | labelled => exact absurd hdefault Bool.false_ne_true
      | optional l =>
          have hlead : ∀ s : String, (s.toList.head? = some '(') → ∀ rest : List Char,
              Unlabelled (s.toList ++ rest) := by
            intro s hs rest
            obtain ⟨cs, hcs⟩ := List.head?_eq_some_iff.1 hs
            rw [hcs]
            exact ⟨expect_of_ne rfl, expect_of_ne rfl⟩
          refine readsTop_lambda hlabel
            (fun depth hdepth => reads_readParam_default hpattern (hread d rfl) ?_)
            (fun rest _ => hlead _ (by simp) rest) hbody
          simp only [String.length_append] at hdepth
          have hparen : "(".length = 1 := rfl
          omega

/-! ## all expressions -/

mutual

/-- The text of an expression is read back, in every position. -/
theorem Expr.readsIn : ∀ e : Expr Payload, e.isLegible →
    Expr.ReadsIn (fun position => e.render Payload.text position) e.isHead (e.erase .places)
  | ⟨_, _, _ :: _⟩, h => absurd h Bool.false_ne_true
  | ⟨shape, span, []⟩, h => by
      obtain ⟨x, xs, -, hlists, hrender⟩ | hrender := Expr.list_or_nodeText ⟨shape, span, []⟩
      · obtain ⟨helements, hlisted⟩ := ExprShape.readsElements shape h hlists
        have hread := (Expr.readsHead_listed helements (List.cons_ne_nil x xs)).anywhere
          (Expr.isHead ⟨shape, span, []⟩)
        rw [hlisted] at hread
        simp only [hrender]
        exact hread
      · have htext : (fun position => Expr.render Payload.text position ⟨shape, span, []⟩) =
            fun position => shape.render Payload.text position :=
          funext fun position => (hrender position).trans (shape.render_eq_parens position).symm
        rw [htext]
        exact ExprShape.readsIn shape h

/-- The elements of a list literal are read back, and its form is the list of them. -/
theorem ExprShape.readsElements : ∀ shape : ExprShape Payload, shape.isLegible →
    ∀ {xs : List (Expr Payload)}, shape.Lists xs →
      (∀ x ∈ xs, Expr.ReadsElement (x.render Payload.text .element) (x.erase .places)) ∧
        Expr.listed (xs.map (Expr.erase .places)) = Expr.made (shape.erase .places)
  | .construct name none, _, _, .nil hnil => by
      rw [ExprShape.erase, Located.erase, QualName.isNil_iff.1 hnil]
      exact ⟨by simp, rfl⟩
  | .construct name (some ⟨.tuple [head, ⟨tail, _, []⟩], _, attributes⟩), h, _,
      .cons hcons _ htail _ _ _ => by
    simp only [ExprShape.isLegible, Expr.isLegible, Expr.allLegible, Bool.and_eq_true,
      List.isEmpty_iff] at h
    obtain ⟨-, rfl, -, hhead, ⟨-, htail'⟩, -⟩ := h
    obtain ⟨helements, hlisted⟩ := ExprShape.readsElements tail htail' htail
    refine ⟨List.forall_mem_cons.2 ⟨(Expr.readsIn head hhead).element, helements⟩, ?_⟩
    rw [List.map_cons, ExprShape.erase, Located.erase, QualName.isCons_iff.1 hcons]
    exact congrArg (Expr.consed _) hlisted

/-- A head and a tail are read back. -/
theorem Expr.readsPair : ∀ e : Expr Payload, e.isLegible → ∀ {a b : Expr Payload} {span : Span},
    e = ⟨.tuple [a, b], span, []⟩ →
      Expr.ReadsAtom (a.render Payload.text .atom) (a.erase .places) ∧
        Expr.ReadsElement (b.render Payload.text .element) (b.erase .places)
  | ⟨.tuple [a, b], _, []⟩, h, _, _, _, rfl => by
      simp only [Expr.isLegible, ExprShape.isLegible, Expr.allLegible, Bool.and_eq_true] at h
      exact ⟨(Expr.readsIn a h.2.2.1).atom, (Expr.readsIn b h.2.2.2.1).element⟩

/-- **Each form is read as itself in any position**, by recursion on the tree along with the
printer: the lemmas of `ExprReading` take one form each. -/
theorem ExprShape.readsIn : ∀ shape : ExprShape Payload, shape.isLegible →
    Expr.ReadsIn (fun position => shape.render Payload.text position)
      (Expr.made shape).isHead (Expr.made (shape.erase .places))
  | .ident name, h => (Expr.readsHead_ident h).anywhere true
  | .constant value, h => by
      cases hsign : value.isNegative with
      | true =>
          have hread := Expr.readsElement_constant (ρ := Payload) h hsign
          simp only [ExprShape.render, hsign, Bool.and_true]
          exact hread.anywhere _
      | false =>
          have hread := Expr.readsAtom_constant (ρ := Payload) h hsign
          simp only [ExprShape.render, hsign, Bool.and_false]
          refine ⟨hread.at, fun hhead => Expr.readsHead_constant h ?_⟩
          exact (Bool.not_eq_true' _).mp hhead
  | .letIn recursion bindings body, h => by
      simp only [ExprShape.isLegible, Bool.and_eq_true, Bool.not_eq_true',
        List.isEmpty_eq_false_iff] at h
      obtain ⟨⟨hne, hbindings⟩, hbody⟩ := h
      have hread := Expr.readsTop_letIn (Binding.readsAll bindings hbindings) hne
        (Expr.readsIn body hbody).top recursion
      rw [← Binding.eraseAll_eq_map, ← Binding.renderAll_eq_map] at hread
      exact hread.anywhere true
  | .function cases, h => by
      rw [ExprShape.isLegible, Bool.and_eq_true, Bool.not_eq_true', List.isEmpty_eq_false_iff] at h
      exact (Expr.readsTop_function (Case.readsAll cases h.2 h.1)).anywhere true
  | .lambda label default param body, h => by
      simp only [ExprShape.isLegible, Bool.and_eq_true] at h
      obtain ⟨⟨⟨⟨hlabel, hdefault⟩, hlegible⟩, hparam⟩, hbody⟩ := h
      have hdefaults := Expr.readsOption default hlegible
      exact (Expr.readsTop_param hlabel hdefault (fun d hd => (hdefaults d hd).top) hparam
        (Expr.readsIn body hbody).top).anywhere true
  | .apply function args, h => by
      simp only [ExprShape.isLegible, Bool.and_eq_true, Bool.not_eq_true',
        List.isEmpty_eq_false_iff] at h
      obtain ⟨⟨⟨hhead, hfunction⟩, hne⟩, hargs⟩ := h
      have hread := Expr.readsElement_apply (Expr.readsIn function hfunction).atom
        (Expr.attach?_of_isHead hhead .places) (Expr.readsArgs args hargs) hne
      rw [← Expr.eraseArgs_eq_map, ← Expr.renderArgs_eq_map] at hread
      exact hread.anywhere true
  | .matchWith scrutinee cases, h => by
      simp only [ExprShape.isLegible, Bool.and_eq_true, Bool.not_eq_true',
        List.isEmpty_eq_false_iff] at h
      obtain ⟨⟨hscrutinee, hne⟩, hcases⟩ := h
      exact (Expr.readsTop_matchWith (Expr.readsIn scrutinee hscrutinee).top
        (Case.readsAll cases hcases hne)).anywhere true
  | .tuple elements, h => by
      rw [ExprShape.isLegible, Bool.and_eq_true, decide_eq_true_eq] at h
      have hread := Expr.readsHead_tuple (Expr.readsAll elements h.2) h.1
      rw [← Expr.eraseAll_eq_map, ← Expr.renderAll_eq_map] at hread
      exact hread.anywhere true
  | .construct name none, h => (Expr.readsAtom_constructor h).anywhere
  | .construct name (some arg), h => by
      rw [ExprShape.isLegible, Bool.and_eq_true] at h
      obtain ⟨hname, harg⟩ := h
      rw [funext (ExprShape.render_eq_parens (.construct name (some arg)))]
      refine Expr.ReadsElement.anywhere ?_ true
      cases hcons : name.value.isCons && arg.isPair with
      | false =>
          rw [hcons, Bool.or_false] at hname
          have hread := Expr.readsElement_construct hname (Expr.readsIn arg harg).atom
          rw [Expr.render_construct_of_not_pair hcons, ← String.append_assoc]
          exact hread
      | true =>
          rw [Bool.and_eq_true] at hcons
          obtain ⟨a, b, span, attributes, hpair⟩ := Expr.exists_of_isPair hcons.2
          have hbare := Expr.isEmpty_of_isLegible harg
          rw [hpair] at hbare
          obtain rfl : attributes = [] := List.isEmpty_iff.1 hbare
          obtain ⟨ha, hb⟩ := Expr.readsPair arg harg hpair
          have hread := Expr.readsElement_cons ha hb
          rw [hpair, Expr.render_cons hcons.1, ExprShape.erase, Located.erase,
            QualName.isCons_iff.1 hcons.1]
          exact hread
  | .variant tag none, h => by
      rw [ExprShape.isLegible, Bool.and_eq_true] at h
      exact (Expr.readsAtom_tag h.1).anywhere
  | .variant tag (some arg), h => by
      rw [ExprShape.isLegible, Bool.and_eq_true] at h
      exact (Expr.readsElement_variant h.1 (Expr.readsIn arg h.2).atom).anywhere true
  | .record fields none, h => by
      simp only [ExprShape.isLegible, Bool.and_eq_true, Bool.not_eq_true',
        List.isEmpty_eq_false_iff] at h
      have hread := Expr.readsHead_record (Expr.readsFields fields h.1.2) h.1.1
      rw [← Expr.renderFields_eq_map] at hread
      simp only [ExprShape.render, ExprShape.erase, Expr.eraseFields_eq_map]
      exact hread.anywhere true
  | .record fields (some base), h => by
      simp only [ExprShape.isLegible, Bool.and_eq_true, Bool.not_eq_true',
        List.isEmpty_eq_false_iff] at h
      have hread := Expr.readsHead_extended (Expr.readsIn base h.2).atom
        (Expr.readsFields fields h.1.2) h.1.1
      rw [← Expr.renderFields_eq_map] at hread
      simp only [ExprShape.render, ExprShape.erase, Expr.eraseFields_eq_map]
      exact hread.anywhere true
  | .field record label, h => by
      simp only [ExprShape.isLegible, Bool.and_eq_true] at h
      obtain ⟨⟨hhead, hrecord⟩, hlabel⟩ := h
      exact (((Expr.readsIn record hrecord).as_head hhead).field hlabel).anywhere true
  | .ifThenElse condition onTrue none, h => by
      simp only [ExprShape.isLegible, Bool.and_eq_true] at h
      exact (Expr.readsTop_ifThen (Expr.readsIn condition h.1.1).top
        (Expr.readsIn onTrue h.1.2).element).anywhere true
  | .ifThenElse condition onTrue (some onFalse), h => by
      simp only [ExprShape.isLegible, Bool.and_eq_true] at h
      exact (Expr.readsTop_ifThenElse (Expr.readsIn condition h.1.1).top
        (Expr.readsIn onTrue h.1.2).element (Expr.readsIn onFalse h.2).element).anywhere true
  | .sequence first second, h => by
      rw [ExprShape.isLegible, Bool.and_eq_true] at h
      exact (Expr.readsTop_sequence (Expr.readsIn first h.1).element
        (Expr.readsIn second h.2).top).anywhere true
  | .constraint expr type, h => by
      rw [ExprShape.isLegible, Bool.and_eq_true] at h
      exact (Expr.readsHead_constraint (Expr.readsIn expr h.1).top
        (TypeExpr.readsAt Payload.text .places type h.2 .top)).anywhere true
  | .openIn ⟨module, override, [], _⟩ body, h => by
      simp only [ExprShape.isLegible, Bool.and_eq_true] at h
      have hread := Expr.readsTop_openIn h.1.2 (Expr.readsIn body h.2).top override
      simp only [ExprShape.render, OpenDecl.renderLocal, List.map_nil, joinAll, String.append_empty]
      exact hread.anywhere true
  | .openIn ⟨_, _, _ :: _, _⟩ _, h => absurd h Bool.false_ne_true
  | .extension _, h => absurd h Bool.false_ne_true

/-- The parts of a product or a list are read between their separators. -/
theorem Expr.readsAll : ∀ es : List (Expr Payload), Expr.allLegible es → ∀ e ∈ es,
    Expr.ReadsElement (e.render Payload.text .element) (e.erase .places)
  | [], _ => by simp
  | e :: rest, h => by
      rw [Expr.allLegible, Bool.and_eq_true] at h
      exact List.forall_mem_cons.2 ⟨(Expr.readsIn e h.1).element, Expr.readsAll rest h.2⟩

/-- A part that may be absent is read in any position if it is there. -/
theorem Expr.readsOption : ∀ o : Option (Expr Payload), Expr.optionLegible o → ∀ e ∈ o,
    Expr.ReadsIn (fun position => e.render Payload.text position) e.isHead (e.erase .places)
  | none, _ => by simp
  | some e, h => by
      rintro _ ⟨rfl⟩
      exact Expr.readsIn e h

/-- The arguments of a function are read as atoms, and their labels are names. -/
theorem Expr.readsArgs : ∀ args : List (ArgLabel × Expr Payload), Expr.argsLegible args →
    ∀ a ∈ args, a.1.isNamed ∧ Expr.ReadsAtom (a.2.render Payload.text .atom) (a.2.erase .places)
  | [], _ => by simp
  | (_, e) :: rest, h => by
      simp only [Expr.argsLegible, Bool.and_eq_true] at h
      exact List.forall_mem_cons.2 ⟨⟨h.1.1, (Expr.readsIn e h.1.2).atom⟩, Expr.readsArgs rest h.2⟩

/-- The fields of a record are read between semicolons, and their labels are names of fields. -/
theorem Expr.readsFields : ∀ fields : List (Located QualName × Expr Payload),
    Expr.fieldsLegible fields → ∀ f ∈ fields, f.1.value.isLabel ∧
      Expr.ReadsElement (f.2.render Payload.text .element) (f.2.erase .places)
  | [], _ => by simp
  | (_, e) :: rest, h => by
      simp only [Expr.fieldsLegible, Bool.and_eq_true] at h
      exact List.forall_mem_cons.2
        ⟨⟨h.1.1, (Expr.readsIn e h.1.2).element⟩, Expr.readsFields rest h.2⟩

/-- Only the body of the last case may reach as far as it can. -/
theorem Case.readsAll : ∀ cases : List (Case Payload), Case.allLegible cases → cases ≠ [] →
    Expr.ReadsCases (Case.renderAll Payload.text cases) (Case.eraseAll .places cases)
  | [], _, hne => absurd rfl hne
  | [⟨pattern, guard, body⟩], h, _ => by
      simp only [Case.allLegible, Bool.and_eq_true] at h
      have hguard := Expr.readsOption guard h.1.1.2
      exact (Case.readsCase h.1.1.1 (fun g hg => (hguard g hg).top)
        (Expr.readsIn body h.1.2).top).single
  | ⟨pattern, guard, body⟩ :: c :: rest, h, _ => by
      rw [Case.allLegible] at h
      simp only [Bool.and_eq_true] at h
      have hguard := Expr.readsOption guard h.1.1.2
      exact (Case.readsCase h.1.1.1 (fun g hg => (hguard g hg).top)
        (Expr.readsIn body h.1.2).element.body).cons
          (Case.readsAll (c :: rest) h.2 (List.cons_ne_nil c rest))

/-- Bindings are read up to the word that closes them. -/
theorem Binding.readsAll : ∀ bindings : List (Binding Payload), Binding.allLegible bindings →
    ∀ b ∈ bindings, Expr.ReadsBinding (b.pattern.render Payload.text false ++ " = " ++
      b.expr.render Payload.text .top ++ Attribute.renderAll Payload.text "@@" b.attributes)
      (b.erase .places)
  | [], _ => by simp
  | ⟨pattern, expr, attributes, _⟩ :: rest, h => by
      simp only [Binding.allLegible, Bool.and_eq_true] at h
      obtain ⟨⟨⟨hattributes, hpattern⟩, hexpr⟩, hrest⟩ := h
      obtain rfl := List.isEmpty_iff.1 hattributes
      have hread := Expr.readsBinding (Pattern.readsAt pattern hpattern false)
        (Expr.readsIn expr hexpr).top
      rw [← String.append_empty (s := _ ++ _)] at hread
      exact List.forall_mem_cons.2 ⟨hread, Binding.readsAll rest hrest⟩

end

/-- The text of a legible expression is read back, but for where the expression was written. -/
theorem Expr.ofText_text {e : Expr Payload} (h : e.isLegible) :
    Expr.ofText e.text = some e.unplaced := by
  have hread : (Expr.read (e.text.length + 1)).top e.text.toList = some (e.unplaced, []) := by
    have hread := (Expr.readsIn e h).top _ (Nat.lt_succ_self _) [] .nil
    rwa [List.append_nil] at hread
  rw [Expr.ofText, hread]

/-- The text of a legible expression says which expression it is: there is a reader that gives every
such expression back, but for where it was written, so expressions with equal texts are equal but
for that. -/
theorem expressions_are_unambiguous :
    (∀ e : Expr Payload, e.isLegible → Expr.ofText e.text = some e.unplaced) ∧
      ∀ e e' : Expr Payload, e.isLegible → e'.isLegible → e.text = e'.text →
        e.unplaced = e'.unplaced := by
  refine ⟨fun e h => Expr.ofText_text h, fun e e' h h' htext => ?_⟩
  have hread : some e.unplaced = some e'.unplaced := by
    rw [← Expr.ofText_text h, htext, Expr.ofText_text h']
  exact Option.some.inj hread

/-- A match of which a case ends in a function, written at one place and at another. -/
theorem expressions_are_unambiguous_moved :
    let e (span : Span) : Expr Payload :=
      .bare (.matchWith (.var "x" span)
        [⟨.var "y" span, some (.var "b" span),
          .function [⟨.any span, none, .unit span⟩] span⟩,
        ⟨.any span, none,
          .list [.applyLabelled (.var "f" span) [(.labelled "l", .int (-1) span)] span,
            .var "z" span] span⟩]) span
    (e ⟨1, 9⟩).text = "match x with | y when b -> (function | _ -> ()) | _ -> [f ~l:(-1); z]" ∧
      ((e ⟨1, 9⟩).isLegible ∧ Expr.ofText (e ⟨1, 9⟩).text = some (e ⟨1, 9⟩).unplaced) ∧
      (e ⟨4, 7⟩).isLegible ∧ (e ⟨1, 9⟩).text = (e ⟨4, 7⟩).text ∧
        (e ⟨1, 9⟩).unplaced = (e ⟨4, 7⟩).unplaced := by
  intro e
  have hfirst : (e ⟨1, 9⟩).isLegible := by decide +kernel
  have hsecond : (e ⟨4, 7⟩).isLegible := by decide +kernel
  exact ⟨rfl, ⟨hfirst, expressions_are_unambiguous.1 _ hfirst⟩, hsecond, rfl,
    expressions_are_unambiguous.2 _ _ hfirst hsecond rfl⟩

end DeriveKit
