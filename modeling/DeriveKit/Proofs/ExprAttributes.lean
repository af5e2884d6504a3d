import DeriveKit.Proofs.ExprForms

/-!
# DeriveKit.Proofs.ExprAttributes

The text of a transparent expression shows all its attributes: `Expr.told` compares the texts of two
expressions that differ in nothing else. There is one lemma for each form that has expressions
inside.

* `attributes_show_in_text` — the result, for expressions and patterns;
* `pair_attributes_do_not_show` — why a pair of a head and a tail must not have attributes.
-/

namespace DeriveKit

/-! ## cases and bindings -/

/-- The texts of two cases tell them apart, if both stand in one position. -/
def Case.Told (c c' : Case Payload) : Prop :=
  ∀ position, Aligned (c.erase .places = c'.erase .places) (c.render Payload.text position)
    (c'.render Payload.text position)

/-- Source text of a binding. -/
def Binding.text (b : Binding Payload) : String :=
  b.pattern.render Payload.text false ++ " = " ++ b.expr.render Payload.text .top ++
    Attribute.renderAll Payload.text "@@" b.attributes

/-- The texts of two bindings tell them apart. -/
def Binding.Told (b b' : Binding Payload) : Prop :=
  Aligned (b.erase .places = b'.erase .places) b.text b'.text

/-- Cases are told apart if their parts are: a pattern, perhaps a guard, and a body. -/
theorem Case.told_of_parts {pattern pattern' : Pattern Payload}
    {guard guard' : Option (Expr Payload)}
    {body body' : Expr Payload} (hpattern : pattern.Told pattern')
    (hguard : Option.Rel Expr.Told guard guard') (hbody : body.Told body') :
    Case.Told ⟨pattern, guard, body⟩ ⟨pattern', guard', body'⟩ := by
  intro position
  have hbodies := ((hbody.aligned position position).lead " -> ")
  cases hguard with
  | none =>
      simp only [render, erase, Expr.eraseOption, String.append_assoc]
      refine ((hpattern false).aligned.append hbodies).imp fun hQ => ?_
      rw [hQ.1, hQ.2]
  | some hguard =>
      simp only [render, erase, Expr.eraseOption, String.append_assoc]
      refine ((hpattern false).aligned.append
        (((hguard.aligned .top .top).append hbodies).lead " when ")).imp fun hQ => ?_
      rw [hQ.1, hQ.2.1, hQ.2.2]

/-- Cases one after the other are aligned. The last one is written in another position than those
before it. -/
theorem Case.aligned_renderAll {cases cases' : List (Case Payload)}
    (h : List.Forall₂ Told cases cases') :
    Aligned (eraseAll .places cases = eraseAll .places cases') (renderAll Payload.text cases)
      (renderAll Payload.text cases') := by
  induction h with
  | nil => exact .refl rfl _
  | cons hc hcases ih =>
      cases hcases with
      | nil =>
          simp only [renderAll, eraseAll]
          refine ((hc .top).lead " | ").imp fun hQ => ?_
          rw [hQ]
      | cons hd hrest =>
          simp only [renderAll, eraseAll, String.append_assoc]
          refine (((hc .element).append ih).lead " | ").imp fun hQ => ?_
          rw [hQ.1]
          exact congrArg _ hQ.2

/-- Bindings are told apart if their parts are. Their attributes are no node attributes, so they are
the same in both. -/
theorem Binding.told_of_parts {pattern pattern' : Pattern Payload} {expr expr' : Expr Payload}
    {attributes attributes' : List (Attribute Payload)} (hpattern : pattern.Told pattern')
    (hexpr : expr.Told expr')
    (hplaces : Attribute.eraseAll .places attributes = Attribute.eraseAll .places attributes')
    (htext : attributes.map (Attribute.render Payload.text "@@") =
      attributes'.map (Attribute.render Payload.text "@@")) (span span' : Span) :
    Binding.Told ⟨pattern, expr, attributes, span⟩ ⟨pattern', expr', attributes', span'⟩ := by
  simp only [Told, text, Attribute.renderAll, erase, htext, hplaces, String.append_assoc]
  refine ((hpattern false).aligned.append (((hexpr.aligned .top .top).trail _).lead " = ")).imp
    fun hQ => ?_
  rw [hQ.1, hQ.2]

/-- An opening holds no expressions, so all of it is the same in both. -/
theorem OpenDecl.same_of_stripped {decl decl' : OpenDecl Payload}
    (h : decl.attributes.all Attribute.isFlag) (h' : decl'.attributes.all Attribute.isFlag)
    (hstripped : decl.erase .nodeAttributes = decl'.erase .nodeAttributes) :
    decl.erase .places = decl'.erase .places ∧
      decl.renderLocal Payload.text = decl'.renderLocal Payload.text := by
  obtain ⟨hmodule, hoverride, hattributes, -⟩ := OpenDecl.mk.inj hstripped
  obtain ⟨hplaces, htext⟩ := Attribute.same_of_stripped h h' hattributes
  rw [erase, erase, renderLocal, renderLocal, hmodule, hoverride, hplaces, htext,
    Located.value_eq_of_erase hmodule]
  exact ⟨rfl, rfl⟩

/-! ## forms -/

namespace Expr

variable {e e' f f' g g' : Expr Payload} {name name' : Located QualName}

/-- A name has no attributes besides those of its node. -/
theorem told_ident (hname : name.erase = name'.erase) (hleaf : isLeaf name.value.text) :
    ExprShape.Told (.ident name) (.ident name') := by
  have hvalue := Located.value_eq_of_erase hname
  simp only [ExprShape.Told, ExprShape.render, ← hvalue]
  exact fun _ hheaded => .leaf (isSolid_of_headed hleaf hheaded) (congrArg ExprShape.ident hname)

/-- Bindings are compared one after the other, and then the body. -/
theorem told_letIn {bindings bindings' : List (Binding Payload)}
    (hbindings : List.Forall₂ Binding.Told bindings bindings') (h : e.Told e')
    (recursion : Recursion) :
    ExprShape.Told (.letIn recursion bindings e) (.letIn recursion bindings' e') := by
  have htexts : ∀ bindings : List (Binding Payload),
      Binding.renderAll Payload.text bindings = bindings.map Binding.text :=
    Binding.renderAll_eq_map Payload.text
  simp only [ExprShape.Told, ExprShape.render, ExprShape.erase, parens, ExprPosition.isNested,
    htexts, Binding.eraseAll_eq_map, if_neg Bool.false_ne_true, String.append_assoc]
  refine fun _ _ => (Tells.keyword (by decide) (((Aligned.joinWith hbindings " and ").append
    ((h.aligned .top .top).lead " in ")).lead recursion.text)).imp fun hQ => ?_
  rw [hQ.1, hQ.2]

/-- The text of a function is that of its cases. -/
theorem told_function {cases cases' : List (Case Payload)}
    (hcases : List.Forall₂ Case.Told cases cases') :
    ExprShape.Told (.function cases) (.function cases') :=
  fun _ _ => (Tells.keyword (by decide) (Case.aligned_renderAll hcases)).imp
    (congrArg ExprShape.function)

/-- A parameter is written without its default, unless it may be left out. -/
theorem aligned_renderParam {param param' : Pattern Payload} (hparam : param.Told param')
    {default default' : Option (Expr Payload)} (hdefault : Option.Rel Told default default')
    {label : ArgLabel} (hlabel : label.isOptional || default.isNone) :
    Aligned (param.erase .places = param'.erase .places ∧
        eraseOption .places default = eraseOption .places default')
      (renderParam Payload.text label (param.render Payload.text true)
        (param.render Payload.text false) default)
      (renderParam Payload.text label (param'.render Payload.text true)
        (param'.render Payload.text false) default') := by
  cases hdefault with
  | none => exact (hparam true).aligned.imp fun hQ => ⟨hQ, rfl⟩
  | some hdefault =>
      cases label with
      | optional label =>
          simp only [renderParam, String.append_assoc]
          exact (((hparam false).aligned.append
            (((hdefault.aligned .top .top).trail ")").lead " = ")).lead "(").imp fun hQ =>
              ⟨hQ.1, congrArg some hQ.2⟩
      | positional | labelled => exact absurd hlabel Bool.false_ne_true

/-- A parameter is compared with its default, which only one that may be left out has
(`ArgLabel.isOptional`). -/
theorem told_lambda {param param' : Pattern Payload} (hparam : param.Told param')
    {default default' : Option (Expr Payload)} (hdefault : Option.Rel Told default default')
    {label : ArgLabel} (hlabel : label.isOptional || default.isNone) (h : e.Told e') :
    ExprShape.Told (.lambda label default param e) (.lambda label default' param' e') := by
  simp only [ExprShape.Told, ExprShape.render, ExprShape.erase, parens, ExprPosition.isNested,
    if_neg Bool.false_ne_true, String.append_assoc]
  refine fun _ _ => (Tells.keyword (by decide) (((aligned_renderParam hparam hdefault hlabel).append
    ((h.aligned .top .top).lead " -> ")).lead label.argText)).imp fun hQ => ?_
  rw [hQ.1.1, hQ.1.2, hQ.2]

/-- What follows the function in an application is no attribute. -/
theorem goesOn_args {args : List (ArgLabel × Expr Payload)} (hne : args ≠ [])
    (h : argsTransparent args) (s : List Char) :
    GoesOn True ((leadEach " "
      (args.map fun a => a.1.argText ++ a.2.render Payload.text .atom)).toList ++ s) := by
  obtain ⟨⟨label, arg⟩, rest, rfl⟩ := List.exists_cons_of_ne_nil hne
  rw [argsTransparent, Bool.and_eq_true] at h
  have hmild : isMild (label.argText ++ arg.render Payload.text .atom) := by
    cases label with
    | positional => simpa [ArgLabel.argText] using isMild_render h.1 .atom
    | labelled | optional =>
        simp only [ArgLabel.argText, String.append_assoc]
        exact isMild_append (by decide) _
  rw [isMild, Bool.and_eq_true] at hmild
  have hclash : clash " [@".toList
    (" " ++ (label.argText ++ arg.render Payload.text .atom)).toList := by
    rw [String.toList_append]
    exact hmild.2
  rw [List.map_cons, leadEach]
  exact goesOn_append hclash (.inl trivial) _ s

/-- A function and its arguments. What follows the function must not be taken for an attribute of
it, so there have to be arguments. -/
theorem told_apply (h : e.Told e') {args args' : List (ArgLabel × Expr Payload)}
    (hargs : List.Forall₂ (fun a a' => a.1 = a'.1 ∧ a.2.Told a'.2) args args')
    (hnext : ∀ s, GoesOn True ((leadEach " "
      (args.map fun a => a.1.argText ++ a.2.render Payload.text .atom)).toList ++ s))
    (hnext' : ∀ s, GoesOn True ((leadEach " "
      (args'.map fun a => a.1.argText ++ a.2.render Payload.text .atom)).toList ++ s)) :
    ExprShape.Told (.apply e args) (.apply e' args') := by
  have htexts : List.Forall₂ (fun a a' : ArgLabel × Expr Payload =>
      Aligned ((a.1, a.2.erase .places) = (a'.1, a'.2.erase .places))
        (a.1.argText ++ a.2.render Payload.text .atom)
        (a'.1.argText ++ a'.2.render Payload.text .atom)) args args' := by
    refine hargs.imp fun a a' ha => ?_
    rw [ha.1]
    exact ((ha.2.aligned .atom .atom).lead _).imp fun hQ => by rw [hQ]
  simp only [ExprShape.Told, ExprShape.render, ExprShape.erase, parens, ExprPosition.splitsApply,
    renderArgs_eq_map, eraseArgs_eq_map, if_neg Bool.false_ne_true]
  exact fun _ hheaded =>
    ((h.same .atom hheaded).follow hnext hnext' (Aligned.leadEach htexts " ")).imp fun hQ =>
      congrArg₂ ExprShape.apply hQ.1 hQ.2

/-- A scrutinee is compared with its cases. -/
theorem told_matchWith (h : e.Told e') {cases cases' : List (Case Payload)}
    (hcases : List.Forall₂ Case.Told cases cases') :
    ExprShape.Told (.matchWith e cases) (.matchWith e' cases') := by
  simp only [ExprShape.Told, ExprShape.render, ExprShape.erase, parens, ExprPosition.isNested,
    if_neg Bool.false_ne_true, String.append_assoc]
  exact fun _ _ => (Tells.keyword (by decide) ((h.aligned .top .top).append
    ((Case.aligned_renderAll hcases).lead " with"))).imp fun hQ =>
      congrArg₂ ExprShape.matchWith hQ.1 hQ.2

/-- The parts of a product are compared between the parentheses. -/
theorem told_tuple {es es' : List (Expr Payload)} (h : List.Forall₂ Told es es') :
    ExprShape.Told (.tuple es) (.tuple es') := by
  have haligned : List.Forall₂ (fun e e' : Expr Payload =>
      Aligned (e.erase .places = e'.erase .places) (e.render Payload.text .element)
        (e'.render Payload.text .element)) es es' := h.imp fun _ _ h => h.aligned .element .element
  intro wide hheaded
  have hfirst : ∀ e ∈ es.head?, ∀ e' ∈ es'.head?,
      Tells wide (GoesOn True) (e.erase .places = e'.erase .places)
        (e.render Payload.text .element) (e'.render Payload.text .element) := by
    intro e he e' he'
    obtain ⟨rest, rfl⟩ : ∃ rest, es = e :: rest := List.head?_eq_some_iff.1 he
    exact (forall₂_head? h e he e' he').same .element hheaded
  simp only [ExprShape.render, ExprShape.erase, renderAll_eq_map, eraseAll_eq_map,
    String.append_assoc]
  exact ((Tells.joinWith haligned hfirst ", " ")" (goesOn_append (by decide) (.inl trivial))
    (goesOn_of_clash (by decide) (.inl trivial)) (by decide)).bracket (by decide)).imp
      (congrArg ExprShape.tuple)

/-- A constructor by itself is a word. -/
theorem told_constant (hname : name.erase = name'.erase) (hleaf : isLeaf name.value.text) :
    ExprShape.Told (.construct name none) (.construct name' none) := by
  have hvalue := Located.value_eq_of_erase hname
  simp only [ExprShape.Told, ExprShape.render, ← hvalue]
  exact fun _ hheaded => .leaf (isSolid_of_headed hleaf hheaded)
    (congrArg (ExprShape.construct · none) hname)

/-- A constructor is a word, and its argument follows. -/
theorem told_construct (h : e.Told e') (hname : name.erase = name'.erase)
    (hleaf : isLeaf name.value.text) (he : (name.value.isCons && e.isPair) = false)
    (he' : (name'.value.isCons && e'.isPair) = false) :
    ExprShape.Told (.construct name (some e)) (.construct name' (some e')) := by
  have hvalue := Located.value_eq_of_erase hname
  intro wide hheaded
  have hsolid : isSolid wide name.value.text := by
    refine isSolid_of_headed hleaf fun hwide => ?_
    have hword := hheaded hwide
    rwa [ExprShape.isHeaded, he, if_neg Bool.false_ne_true] at hword
  rw [render_construct_of_not_pair he, render_construct_of_not_pair he', ← hvalue]
  exact (Tells.word hsolid ((h.aligned .atom .atom).lead " ")).imp fun hQ =>
    congrArg₂ (fun n e => ExprShape.construct n (some e)) hname hQ

/-- A head and a tail are compared on the two sides of the infix sign. -/
theorem told_cons (he : e.Told e') (hf : f.Told f') (hname : name.erase = name'.erase)
    (hcons : name.value.isCons) (span span' : Span) :
    ExprShape.Told (.construct name (some ⟨.tuple [e, f], span, []⟩))
      (.construct name' (some ⟨.tuple [e', f'], span', []⟩)) := by
  have hcons' : name'.value.isCons := Located.value_eq_of_erase hname ▸ hcons
  have hnext : ∀ f : Expr Payload, ∀ s,
      GoesOn True ((" :: " ++ f.render Payload.text .element).toList ++ s) := fun _ =>
    goesOn_append (by decide) (.inl trivial) _
  intro wide hheaded
  rw [isHeaded_construct_pair hcons] at hheaded
  rw [render_cons hcons, render_cons hcons']
  refine ((he.same .atom hheaded).follow (hnext f) (hnext f')
    ((hf.aligned .element .element).lead " :: ")).imp fun hQ => ?_
  simp only [ExprShape.erase, eraseOption, erase, eraseAll, hQ.1, hQ.2, hname]

/-- A pair with attributes is compared behind the constructor of lists, its attributes after it. -/
theorem told_paired (he : e.Told e') (hf : f.Told f') (hname : name.erase = name'.erase)
    (hcons : name.value.isCons) {attributes attributes' : List (Attribute Payload)}
    (hflags : attributes.all Attribute.isFlag) (hflags' : attributes'.all Attribute.isFlag)
    (hne : attributes ≠ []) (hne' : attributes' ≠ []) (span span' : Span) :
    ExprShape.Told (.construct name (some ⟨.tuple [e, f], span, attributes⟩))
      (.construct name' (some ⟨.tuple [e', f'], span', attributes'⟩)) := by
  have hcons' : name'.value.isCons := Located.value_eq_of_erase hname ▸ hcons
  have htuple : ExprShape.Told (.tuple [e, f]) (.tuple [e', f']) :=
    told_tuple (.cons he (.cons hf .nil))
  intro wide hheaded
  rw [isHeaded_construct_pair hcons] at hheaded
  rw [render_paired hcons e f span hne, render_paired hcons' e' f' span' hne']
  exact ((htuple wide hheaded).both_framed hflags hflags' (.inl hne) (.inl hne')).behind_cons.imp
    fun hQ => congrArg₂ (fun n pair => ExprShape.construct n (some pair)) hname
      (congrArg₂ (Expr.mk · .generated ·) hQ.1 hQ.2)

/-- A pair with attributes is told apart from one without, of which the head begins the text. -/
theorem told_paired_cons {same Q R : Prop} {wide : Bool}
    (h : Tells true (GoesOn same) Q (e.render Payload.text .element)
      (e'.render Payload.text .atom))
    (hcons : name.value.isCons) (hcons' : name'.value.isCons)
    {attributes : List (Attribute Payload)} (hne : attributes ≠ []) (span span' : Span) :
    Tells wide (fun _ => True) R
      (ExprShape.render Payload.text .top
        (.construct name (some ⟨.tuple [e, f], span, attributes⟩)))
      (ExprShape.render Payload.text .top
        (.construct name' (some ⟨.tuple [e', f'], span', []⟩))) := by
  obtain ⟨t, ht⟩ := exists_render_paired hcons e f span hne
  rw [ht, render_cons hcons']
  refine (h.heads_shifted (goesOn_append (by decide) (.inr (by decide)) _)
    (goesOn_append (by decide) (.inr (by decide)) _) fun s s' heq => ?_).imp False.elim
  simp at heq

/-- A tag is a word, and its argument follows. -/
theorem told_variant (h : e.Told e') (tag : String) :
    ExprShape.Told (.variant tag (some e)) (.variant tag (some e')) := by
  simp only [ExprShape.Told, ExprShape.render, parens, ExprPosition.splitsApply,
    if_neg Bool.false_ne_true, String.append_assoc]
  exact fun _ _ => (Tells.keyword (by decide) (((h.aligned .atom .atom).lead " ").lead tag)).imp
    fun hQ => congrArg (fun e => ExprShape.variant tag (some e)) hQ

/-- A record is compared field by field, after the base if there is one. -/
theorem told_record {fields fields' : List (Located QualName × Expr Payload)}
    (hfields : List.Forall₂ (fun f f' => f.1.erase = f'.1.erase ∧ f.2.Told f'.2) fields fields')
    {base base' : Option (Expr Payload)} (hbase : Option.Rel Told base base') :
    ExprShape.Told (.record fields base) (.record fields' base') := by
  have htexts : List.Forall₂ (fun f f' : Located QualName × Expr Payload =>
      Aligned ((f.1.erase, f.2.erase .places) = (f'.1.erase, f'.2.erase .places))
        (f.1.value.text ++ " = " ++ f.2.render Payload.text .element)
        (f'.1.value.text ++ " = " ++ f'.2.render Payload.text .element)) fields fields' := by
    refine hfields.imp fun f f' hf => ?_
    rw [Located.value_eq_of_erase hf.1]
    exact ((hf.2.aligned .element .element).lead _).imp fun hQ => Prod.ext hf.1 hQ
  have hlist := (Aligned.joinWith htexts "; ").trail " \x7d"
  cases hbase with
  | none =>
      simp only [ExprShape.Told, ExprShape.render, ExprShape.erase, renderFields_eq_map,
        eraseFields_eq_map, String.append_assoc] at hlist ⊢
      exact fun _ _ => (Tells.keyword (by decide) hlist).imp (congrArg (ExprShape.record · none))
  | some hbase =>
      simp only [ExprShape.Told, ExprShape.render, ExprShape.erase, renderFields_eq_map,
        eraseFields_eq_map, String.append_assoc] at hlist ⊢
      exact fun _ _ =>
        (Tells.keyword (by decide) ((hbase.aligned .atom .atom).append (hlist.lead " with "))).imp
          fun hQ => congrArg₂ (fun fields base => ExprShape.record fields (some base)) hQ.2 hQ.1

/-- The label is the same in both, so the records are compared. -/
theorem told_field (h : e.Told e') (hname : name.erase = name'.erase) :
    ExprShape.Told (.field e name) (.field e' name') := by
  simp only [ExprShape.Told, ExprShape.render, ← Located.value_eq_of_erase hname,
    String.append_assoc]
  have hnext : ∀ s, GoesOn True (("." ++ name.value.text).toList ++ s) :=
    goesOn_append (by decide) (.inl trivial) _
  exact fun _ hheaded =>
    ((h.same .atom hheaded).follow hnext hnext (.refl trivial _)).imp fun hQ =>
      congrArg₂ ExprShape.field hQ.1 hname

/-- A condition is compared with its branches; both have a second one or none. -/
theorem told_ifThenElse (he : e.Told e') (hf : f.Told f') {onFalse onFalse' : Option (Expr Payload)}
    (hg : Option.Rel Told onFalse onFalse') :
    ExprShape.Told (.ifThenElse e f onFalse) (.ifThenElse e' f' onFalse') := by
  have hthen := (hf.aligned .element .element)
  cases hg with
  | none =>
      simp only [ExprShape.Told, ExprShape.render, ExprShape.erase, parens, ExprPosition.isNested,
        if_neg Bool.false_ne_true, String.append_assoc]
      exact fun _ _ =>
        (Tells.keyword (by decide) ((he.aligned .top .top).append (hthen.lead " then "))).imp
          fun hQ => congrArg₂ (ExprShape.ifThenElse · · none) hQ.1 hQ.2
  | some hg =>
      simp only [ExprShape.Told, ExprShape.render, ExprShape.erase, parens, ExprPosition.isNested,
        if_neg Bool.false_ne_true, String.append_assoc]
      refine fun _ _ => (Tells.keyword (by decide) ((he.aligned .top .top).append
        ((hthen.append ((hg.aligned .element .element).lead " else ")).lead " then "))).imp
          fun hQ => ?_
      rw [hQ.1, hQ.2.1]
      exact congrArg (fun g => ExprShape.ifThenElse _ _ (some g)) hQ.2.2

/-- The two expressions of a sequence are compared on the two sides of the semicolon. -/
theorem told_sequence (he : e.Told e') (hf : f.Told f') :
    ExprShape.Told (.sequence e f) (.sequence e' f') := by
  simp only [ExprShape.Told, ExprShape.render, ExprShape.erase, parens, ExprPosition.isNested,
    if_neg Bool.false_ne_true, String.append_assoc]
  have hnext : ∀ f : Expr Payload, ∀ s,
      GoesOn True (("; " ++ f.render Payload.text .top).toList ++ s) := fun _ =>
    goesOn_append (by decide) (.inl trivial) _
  exact fun _ hheaded => ((he.same .element hheaded).follow (hnext f) (hnext f')
    ((hf.aligned .top .top).lead "; ")).imp fun hQ => congrArg₂ ExprShape.sequence hQ.1 hQ.2

/-- The type of a constraint is the same in both (`TypeExpr.same_of_stripped`). -/
theorem told_constraint (h : e.Told e') {type type' : TypeExpr Payload}
    (htype : type.erase .places = type'.erase .places)
    (htext : type.render Payload.text .top = type'.render Payload.text .top) :
    ExprShape.Told (.constraint e type) (.constraint e' type') := by
  simp only [ExprShape.Told, ExprShape.render, String.append_assoc, ← htext]
  have hnext : ∀ s, GoesOn True ((" : " ++ (type.render Payload.text .top ++ ")")).toList ++ s) :=
    goesOn_append (by decide) (.inl trivial) _
  exact fun _ hheaded =>
    (((h.same .top hheaded).follow hnext hnext (.refl trivial _)).bracket (by decide)).imp fun hQ =>
    congrArg₂ ExprShape.constraint hQ.1 htype

/-- So is the module that is opened. -/
theorem told_openIn (h : e.Told e') {decl decl' : OpenDecl Payload}
    (hdecl : decl.erase .places = decl'.erase .places)
    (htext : decl.renderLocal Payload.text = decl'.renderLocal Payload.text) :
    ExprShape.Told (.openIn decl e) (.openIn decl' e') := by
  obtain ⟨t, ht⟩ : ∃ t, decl.renderLocal Payload.text = "let open" ++ t := by
    simp only [OpenDecl.renderLocal, String.append_assoc]
    exact ⟨_, rfl⟩
  simp only [ExprShape.Told, ExprShape.render, ExprShape.erase, parens, ExprPosition.isNested,
    if_neg Bool.false_ne_true, ← htext, ht, String.append_assoc]
  exact fun _ _ => (Tells.keyword (by decide) ((h.aligned .top .top).lead t)).imp fun hQ =>
    congrArg₂ ExprShape.openIn hdecl hQ

/-- And so is an extension node. -/
theorem told_extension {ext ext' : Extension Payload}
    (hext : ext.erase .places = ext'.erase .places)
    (htext : ext.render Payload.text "%" = ext'.render Payload.text "%") :
    ExprShape.Told (.extension ext) (.extension ext') := by
  obtain ⟨t, ht⟩ : ∃ t, ext.render Payload.text "%" = "[%" ++ t := by
    refine ⟨ext.name.value ++ (ext.payload.text ++ "]"), String.toList_injective ?_⟩
    simp [Extension.render]
  simp only [ExprShape.Told, ExprShape.render, ← htext, ht]
  exact fun _ _ => .keyword (by decide) (.refl (congrArg ExprShape.extension hext) t)

end Expr

/-! ## all expressions -/

namespace Expr.ToldBelow

variable {n : Nat}

theorem mono {m : Nat} (ih : ToldBelow n) (h : m ≤ n) : ToldBelow m := fun e e' he =>
  ih e e' (Nat.lt_of_lt_of_le he h)

/-- The induction hypothesis, for expressions one after the other. -/
theorem all (ih : ToldBelow n) : ∀ {es es' : List (Expr Payload)}, sizeOf es ≤ n →
    allTransparent es → allTransparent es' →
    eraseAll .nodeAttributes es = eraseAll .nodeAttributes es' → List.Forall₂ Told es es'
  | [], [], _, _, _, _ => .nil
  | [], _ :: _, _, _, _, hs | _ :: _, [], _, _, _, hs => nomatch hs
  | e :: es, e' :: es', hsize, h, h', hs => by
      rw [allTransparent, Bool.and_eq_true] at h h'
      rw [List.cons.sizeOf_spec] at hsize
      obtain ⟨he, hes⟩ := List.cons.inj hs
      exact .cons (ih e e' (by omega) h.1 h'.1 he) (ih.all (by omega) h.2 h'.2 hes)

/-- For an expression that may be absent. -/
theorem option (ih : ToldBelow n) : ∀ {e e' : Option (Expr Payload)}, sizeOf e ≤ n →
    optionTransparent e → optionTransparent e' →
    eraseOption .nodeAttributes e = eraseOption .nodeAttributes e' → Option.Rel Told e e'
  | none, none, _, _, _, _ => .none
  | none, some _, _, _, _, hs | some _, none, _, _, _, hs => nomatch hs
  | some e, some e', hsize, h, h', hs => by
      rw [Option.some.sizeOf_spec] at hsize
      exact .some (ih e e' (by omega) h h' (Option.some.inj hs))

/-- For arguments, whose labels are the same. -/
theorem args (ih : ToldBelow n) : ∀ {args args' : List (ArgLabel × Expr Payload)},
    sizeOf args ≤ n → argsTransparent args → argsTransparent args' →
    eraseArgs .nodeAttributes args = eraseArgs .nodeAttributes args' →
    List.Forall₂ (fun a a' => a.1 = a'.1 ∧ a.2.Told a'.2) args args'
  | [], [], _, _, _, _ => .nil
  | [], _ :: _, _, _, _, hs | _ :: _, [], _, _, _, hs => nomatch hs
  | (label, e) :: rest, (label', e') :: rest', hsize, h, h', hs => by
      rw [argsTransparent, Bool.and_eq_true] at h h'
      rw [List.cons.sizeOf_spec, Prod.mk.sizeOf_spec] at hsize
      obtain ⟨harg, hrest⟩ := List.cons.inj hs
      obtain ⟨hlabel, he⟩ := Prod.mk.inj harg
      exact .cons ⟨hlabel, ih e e' (by omega) h.1 h'.1 he⟩ (ih.args (by omega) h.2 h'.2 hrest)

/-- For the fields of a record, whose labels are the same. -/
theorem fields (ih : ToldBelow n) : ∀ {fields fields' : List (Located QualName × Expr Payload)},
    sizeOf fields ≤ n → fieldsTransparent fields → fieldsTransparent fields' →
    eraseFields .nodeAttributes fields = eraseFields .nodeAttributes fields' →
    List.Forall₂ (fun f f' => f.1.erase = f'.1.erase ∧ f.2.Told f'.2) fields fields'
  | [], [], _, _, _, _ => .nil
  | [], _ :: _, _, _, _, hs | _ :: _, [], _, _, _, hs => nomatch hs
  | (label, e) :: rest, (label', e') :: rest', hsize, h, h', hs => by
      rw [fieldsTransparent, Bool.and_eq_true] at h h'
      rw [List.cons.sizeOf_spec, Prod.mk.sizeOf_spec] at hsize
      obtain ⟨hfield, hrest⟩ := List.cons.inj hs
      obtain ⟨hlabel, he⟩ := Prod.mk.inj hfield
      exact .cons ⟨hlabel, ih e e' (by omega) h.1 h'.1 he⟩ (ih.fields (by omega) h.2 h'.2 hrest)

/-- For cases, whose patterns are told apart by `Pattern.told`. -/
theorem cases (ih : ToldBelow n) : ∀ {cases cases' : List (Case Payload)}, sizeOf cases ≤ n →
    Case.allTransparent cases → Case.allTransparent cases' →
    Case.eraseAll .nodeAttributes cases = Case.eraseAll .nodeAttributes cases' →
    List.Forall₂ Case.Told cases cases'
  | [], [], _, _, _, _ => .nil
  | [], _ :: _, _, _, _, hs | _ :: _, [], _, _, _, hs => nomatch hs
  | ⟨pattern, guard, body⟩ :: rest, ⟨pattern', guard', body'⟩ :: rest', hsize, h, h', hs => by
      simp only [Case.allTransparent, Bool.and_eq_true] at h h'
      rw [List.cons.sizeOf_spec, Case.mk.sizeOf_spec] at hsize
      obtain ⟨hcase, hrest⟩ := List.cons.inj hs
      obtain ⟨hpattern, hguard, hbody⟩ := Case.mk.inj hcase
      exact .cons (Case.told_of_parts (Pattern.told h.1.1 h'.1.1 hpattern)
        (ih.option (by omega) h.1.2.1 h'.1.2.1 hguard)
          (ih body body' (by omega) h.1.2.2 h'.1.2.2 hbody))
        (ih.cases (by omega) h.2 h'.2 hrest)

/-- For bindings. -/
theorem bindings (ih : ToldBelow n) : ∀ {bindings bindings' : List (Binding Payload)},
    sizeOf bindings ≤ n → Binding.allTransparent bindings → Binding.allTransparent bindings' →
    Binding.eraseAll .nodeAttributes bindings = Binding.eraseAll .nodeAttributes bindings' →
    List.Forall₂ Binding.Told bindings bindings'
  | [], [], _, _, _, _ => .nil
  | [], _ :: _, _, _, _, hs | _ :: _, [], _, _, _, hs => nomatch hs
  | ⟨pattern, expr, attributes, span⟩ :: rest, ⟨pattern', expr', attributes', span'⟩ :: rest',
      hsize, h, h', hs => by
    simp only [Binding.allTransparent, Bool.and_eq_true] at h h'
    rw [List.cons.sizeOf_spec, Binding.mk.sizeOf_spec] at hsize
    obtain ⟨hbinding, hrest⟩ := List.cons.inj hs
    obtain ⟨hpattern, hexpr, hattributes, -⟩ := Binding.mk.inj hbinding
    obtain ⟨hplaces, htext⟩ := Attribute.same_of_stripped h.1.2.2 h'.1.2.2 hattributes
    exact .cons (Binding.told_of_parts (Pattern.told h.1.1 h'.1.1 hpattern)
      (ih expr expr' (by omega) h.1.2.1 h'.1.2.1 hexpr) hplaces (htext "@@") span span')
      (ih.bindings (by omega) h.2 h'.2 hrest)

/-- A constructor with its argument, written with an infix sign or not. Both sides are written in
the same way, because a pair is one with attributes or without. -/
theorem constructed {e e' : Expr Payload} (ih : ToldBelow n) (hsize : sizeOf e < n)
    {name name' : Located QualName} (hname : name.erase = name'.erase)
    (h : (ExprShape.construct name (some e)).isTransparent)
    (h' : (ExprShape.construct name' (some e')).isTransparent) (hs : e.stripped = e'.stripped) :
    ExprShape.Told (.construct name (some e)) (.construct name' (some e')) := by
  have hvalue := Located.value_eq_of_erase hname
  have hpairs : e.isPair = e'.isPair := isPair_of_stripped hs
  simp only [ExprShape.isTransparent, Bool.and_eq_true] at h h'
  obtain ⟨⟨hleaf, hpaired⟩, he⟩ := h
  obtain ⟨⟨-, hpaired'⟩, he'⟩ := h'
  cases hpair : name.value.isCons && e.isPair with
  | false =>
      refine told_construct (ih e e' hsize he he' hs) hname hleaf hpair ?_
      rwa [← hvalue, ← hpairs]
  | true =>
      rw [← hvalue, ← hpairs, hpair, Bool.not_true, Bool.false_or] at hpaired'
      rw [hpair, Bool.not_true, Bool.false_or] at hpaired
      rw [Bool.and_eq_true] at hpair
      obtain ⟨a, b, span, attributes, rfl⟩ := exists_of_isPair hpair.2
      obtain ⟨a', b', span', attributes', rfl⟩ := exists_of_isPair (hpairs ▸ hpair.2)
      obtain ⟨ha, hrest⟩ := List.cons.inj (ExprShape.tuple.inj (congrArg shape hs))
      simp only [isTransparent, ExprShape.isTransparent, allTransparent, Bool.and_eq_true] at he he'
      simp only [mk.sizeOf_spec, ExprShape.tuple.sizeOf_spec, List.cons.sizeOf_spec] at hsize
      have hcons' : name'.value.isCons := hvalue ▸ hpair.1
      have hheads : a.Told a' := ih a a' (by omega) he.2.1 he'.2.1 ha
      have htails : b.Told b' := ih b b' (by omega) he.2.2.1 he'.2.2.1 (List.cons.inj hrest).1
      -- Each side is written with an infix sign, unless its pair has attributes.
      obtain rfl | hne := eq_or_ne attributes [] <;> obtain rfl | hne' := eq_or_ne attributes' []
      · exact told_cons hheads htails hname hpair.1 span span'
      · have hheaded : a.isHeaded := by
          rw [isHeaded_of_stripped ha]
          simpa [hne', isHeaded, ExprShape.isHeaded] using hpaired'
        exact fun _ _ => (told_paired_cons (hheads true .atom .element fun _ => hheaded).symm hcons'
          hpair.1 hne' span' span).symm
      · have hheaded : a.isHeaded := by
          simpa [hne, isHeaded, ExprShape.isHeaded] using hpaired
        exact fun _ _ => told_paired_cons (hheads true .element .atom fun _ => hheaded) hpair.1
          hcons' hne span span'
      · exact told_paired hheads htails hname hpair.1 he.1.1 he'.1.1 hne hne' span span'

end Expr.ToldBelow

/-- Forms that differ in attributes only are told apart by their texts, if the expressions inside
are. -/
theorem ExprShape.told {s s' : ExprShape Payload} (ih : Expr.ToldBelow (sizeOf s))
    (h : s.isTransparent) (h' : s'.isTransparent)
    (hs : s.erase .nodeAttributes = s'.erase .nodeAttributes) : s.Told s' := by
  cases s with
  | ident name =>
      cases s' with
      | ident name' => exact Expr.told_ident (ident.inj hs) h
      | _ => cases hs
  | constant value =>
      cases s' with
      | constant value' =>
          obtain rfl := constant.inj hs
          exact fun _ hheaded => .leaf (isSolid_of_headed h hheaded) rfl
      | _ => cases hs
  | letIn recursion bindings body =>
      cases s' with
      | letIn recursion' bindings' body' =>
          obtain ⟨rfl, hbindings, hbody⟩ := letIn.inj hs
          rw [isTransparent, Bool.and_eq_true] at h h'
          exact Expr.told_letIn (ih.bindings (by simp; omega) h.1 h'.1 hbindings)
            (ih body body' (by simp only [letIn.sizeOf_spec]; omega) h.2 h'.2 hbody) recursion
      | _ => cases hs
  | function cases =>
      cases s' with
      | function cases' => exact Expr.told_function (ih.cases (by simp) h h' (function.inj hs))
      | _ => cases hs
  | lambda label default param body =>
      cases s' with
      | lambda label' default' param' body' =>
          obtain ⟨rfl, hdefault, hparam, hbody⟩ := lambda.inj hs
          simp only [isTransparent, Bool.and_eq_true] at h h'
          exact Expr.told_lambda (Pattern.told h.2.1 h'.2.1 hparam)
            (ih.option (by simp; omega) h.1.2 h'.1.2 hdefault) h.1.1
            (ih body body' (by simp only [lambda.sizeOf_spec]; omega) h.2.2 h'.2.2 hbody)
      | _ => cases hs
  | apply function args =>
      cases s' with
      | apply function' args' =>
          obtain ⟨hfunction, hargs⟩ := apply.inj hs
          simp only [isTransparent, Bool.and_eq_true, Bool.not_eq_true',
            List.isEmpty_eq_false_iff] at h h'
          exact Expr.told_apply (ih function function' (by simp; omega) h.2.1 h'.2.1 hfunction)
            (ih.args (by simp) h.2.2 h'.2.2 hargs) (Expr.goesOn_args h.1 h.2.2)
            (Expr.goesOn_args h'.1 h'.2.2)
      | _ => cases hs
  | matchWith scrutinee cases =>
      cases s' with
      | matchWith scrutinee' cases' =>
          obtain ⟨hscrutinee, hcases⟩ := matchWith.inj hs
          rw [isTransparent, Bool.and_eq_true] at h h'
          exact Expr.told_matchWith (ih scrutinee scrutinee' (by simp; omega) h.1 h'.1 hscrutinee)
            (ih.cases (by simp) h.2 h'.2 hcases)
      | _ => cases hs
  | tuple elements =>
      cases s' with
      | tuple elements' => exact Expr.told_tuple (ih.all (by simp) h h' (tuple.inj hs))
      | _ => cases hs
  | construct name arg =>
      cases s' with
      | construct name' arg' =>
          obtain ⟨hname, harg⟩ := construct.inj hs
          cases arg with
          | none =>
              cases arg' with
              | none => exact Expr.told_constant hname h
              | some e' => cases harg
          | some e =>
              cases arg' with
              | none => cases harg
              | some e' => exact ih.constructed (by simp; omega) hname h h' (Option.some.inj harg)
      | _ => cases hs
  | variant tag arg =>
      cases s' with
      | variant tag' arg' =>
          obtain ⟨rfl, harg⟩ := variant.inj hs
          cases arg with
          | none =>
              cases arg' with
              | none => exact fun _ _ => .keyword (by decide) (.refl rfl tag)
              | some e' => cases harg
          | some e =>
              cases arg' with
              | none => cases harg
              | some e' =>
                  exact Expr.told_variant (ih e e' (by simp; omega) h h' (Option.some.inj harg)) tag
      | _ => cases hs
  | record fields base =>
      cases s' with
      | record fields' base' =>
          obtain ⟨hfields, hbase⟩ := record.inj hs
          rw [isTransparent, Bool.and_eq_true] at h h'
          exact Expr.told_record (ih.fields (by simp; omega) h.1 h'.1 hfields)
            (ih.option (by simp) h.2 h'.2 hbase)
      | _ => cases hs
  | field record label =>
      cases s' with
      | field record' label' =>
          obtain ⟨hrecord, hlabel⟩ := field.inj hs
          exact Expr.told_field (ih record record' (by simp; omega) h h' hrecord) hlabel
      | _ => cases hs
  | ifThenElse condition onTrue onFalse =>
      cases s' with
      | ifThenElse condition' onTrue' onFalse' =>
          obtain ⟨hcondition, hTrue, hFalse⟩ := ifThenElse.inj hs
          simp only [isTransparent, Bool.and_eq_true] at h h'
          exact Expr.told_ifThenElse (ih condition condition' (by simp; omega) h.1 h'.1 hcondition)
            (ih onTrue onTrue' (by simp; omega) h.2.1 h'.2.1 hTrue)
            (ih.option (by simp) h.2.2 h'.2.2 hFalse)
      | _ => cases hs
  | sequence first second =>
      cases s' with
      | sequence first' second' =>
          obtain ⟨hfirst, hsecond⟩ := sequence.inj hs
          rw [isTransparent, Bool.and_eq_true] at h h'
          exact Expr.told_sequence (ih first first' (by simp; omega) h.1 h'.1 hfirst)
            (ih second second' (by simp only [sequence.sizeOf_spec]; omega) h.2 h'.2 hsecond)
      | _ => cases hs
  | constraint expr type =>
      cases s' with
      | constraint expr' type' =>
          obtain ⟨hexpr, htype⟩ := constraint.inj hs
          rw [isTransparent, Bool.and_eq_true] at h h'
          obtain ⟨hplaces, htext⟩ := TypeExpr.same_of_stripped h.2 h'.2 htype
          exact Expr.told_constraint (ih expr expr' (by simp; omega) h.1 h'.1 hexpr) hplaces
            (htext .top)
      | _ => cases hs
  | openIn decl body =>
      cases s' with
      | openIn decl' body' =>
          obtain ⟨hdecl, hbody⟩ := openIn.inj hs
          rw [isTransparent, Bool.and_eq_true] at h h'
          obtain ⟨hplaces, htext⟩ := OpenDecl.same_of_stripped h.1 h'.1 hdecl
          exact Expr.told_openIn
            (ih body body' (by simp only [openIn.sizeOf_spec]; omega) h.2 h'.2 hbody)
            hplaces htext
      | _ => cases hs
  | extension ext =>
      cases s' with
      | extension ext' =>
          obtain ⟨hplaces, htext⟩ := Extension.same_of_stripped h h' (extension.inj hs)
          exact Expr.told_extension hplaces (htext "%")
      | _ => cases hs

/-- Expressions of any size are told apart, by induction on the size: `ExprShape.told` is one step
of it, and `told_of_forms` adds the attributes of the node. -/
theorem Expr.toldBelow (n : Nat) : ToldBelow n := by
  induction n with
  | zero => exact fun _ _ hsize => absurd hsize (Nat.not_lt_zero _)
  | succ n ih =>
      rintro ⟨shape, span, attributes⟩ ⟨shape', span', attributes'⟩ hsize h h' hs
      rw [mk.sizeOf_spec] at hsize
      have hshape : shape.erase .nodeAttributes = shape'.erase .nodeAttributes :=
        congrArg Expr.shape hs
      have hbelow : ToldBelow (sizeOf shape) := ih.mono (by omega)
      exact told_of_forms hbelow h h' hshape
        (ExprShape.told hbelow (isTransparent_shape h) (isTransparent_shape h') hshape)

/-- Transparent expressions that differ in attributes only are told apart by their texts. -/
theorem Expr.told {e e' : Expr Payload} (h : e.isTransparent) (h' : e'.isTransparent)
    (hs : e.stripped = e'.stripped) : e.Told e' :=
  toldBelow (sizeOf e + 1) e e' (Nat.lt_succ_self _) h h' hs

/-! ## the result -/

/-- **The text shows all attributes.** If two transparent expressions are equal but for their places
and the attributes of patterns and expressions, and have one text, then they are equal but for their
places; and so are two patterns. -/
theorem attributes_show_in_text {e e' : Expr Payload} {p p' : Pattern Payload} :
    (e.isTransparent → e'.isTransparent → e.stripped = e'.stripped → e.text = e'.text →
      e.unplaced = e'.unplaced) ∧
    (p.isTransparent → p'.isTransparent → p.stripped = p'.stripped → p.text = p'.text →
      p.unplaced = p'.unplaced) :=
  ⟨fun h h' hs htext => ((Expr.told h h' hs).aligned .top .top).of_eq htext,
    fun h h' hs htext => (Pattern.told h h' hs false).aligned.of_eq htext⟩

/-- The list `[(a [@x]); :: ((b, c) [@y])]`, in which a pair with an attribute stands before no
list, and the pattern `a :: ((b, c) [@x])`, each at two places. -/
theorem attributes_show_in_text_moved :
    let list (place : Span) : Expr Payload :=
      .list [(Expr.var "a" place).withAttributes [.flag "x" place],
        .construct (.simple "::") (some ⟨.tuple [.var "b" place, .var "c" place], place,
          [.flag "y" place]⟩) place] place
    let pair (place : Span) : Pattern Payload :=
      ⟨.tuple [.var "b" place, .var "c" place], place, [.flag "x" place]⟩
    let cell (place : Span) : Pattern Payload :=
      .construct (.simple "::") (some (.tuple [.var "a" place, pair place] place)) place
    let first := list ⟨1, 2⟩
    let second := list ⟨3, 4⟩
    let third := cell ⟨5, 6⟩
    let fourth := cell ⟨7, 8⟩
    first.isTransparent ∧ second.isTransparent ∧ first.stripped = second.stripped ∧
      first.text = "[(a [@x]); :: ((b, c) [@y])]" ∧ first.text = second.text ∧
        first.unplaced = second.unplaced ∧
      third.isTransparent ∧ fourth.isTransparent ∧ third.stripped = fourth.stripped ∧
        third.text = "a :: ((b, c) [@x])" ∧ third.text = fourth.text ∧
          third.unplaced = fourth.unplaced := by
  intro list pair cell first second third fourth
  have hfirst : first.isTransparent := by decide +kernel
  have hsecond : second.isTransparent := by decide +kernel
  have hthird : third.isTransparent := by decide +kernel
  have hfourth : fourth.isTransparent := by decide +kernel
  obtain ⟨hexprs, hpatterns⟩ := @attributes_show_in_text first second third fourth
  exact ⟨hfirst, hsecond, rfl, rfl, rfl, hexprs hfirst hsecond rfl rfl, hthird, hfourth,
    rfl, rfl, rfl, hpatterns hthird hfourth rfl rfl⟩

/-- The attribute of a pair of a head and a tail does not show: neither in the list `[a]`, nor in
the pattern `a :: b`. -/
theorem pair_attributes_do_not_show :
    ∃ (e e' : Expr Payload) (p p' : Pattern Payload),
      e.stripped = e'.stripped ∧ e.text = "[a]" ∧ e'.text = "[a]" ∧ e.unplaced ≠ e'.unplaced ∧
      p.stripped = p'.stripped ∧ p.text = "a :: b" ∧ p'.text = "a :: b" ∧
        p.unplaced ≠ p'.unplaced := by
  let name : Located QualName := .generated (.simple "::")
  let list (attributes : List (Attribute Payload)) : Expr Payload :=
    .bare (.construct name (some ⟨.tuple [.var "a" .generated, .nil .generated], .generated,
      attributes⟩)) .generated
  let cell (attributes : List (Attribute Payload)) : Pattern Payload :=
    .bare (.construct name (some ⟨.tuple [.var "a" .generated, .var "b" .generated], .generated,
      attributes⟩)) .generated
  let flag : Attribute Payload := .flag "x" .generated
  have hlist : (list []).unplaced ≠ (list [flag]).unplaced := by
    intro h
    obtain ⟨-, harg⟩ := ExprShape.construct.inj (congrArg Expr.shape h)
    exact absurd (congrArg Expr.attributes (Option.some.inj harg)) nofun
  have hcell : (cell []).unplaced ≠ (cell [flag]).unplaced := by
    intro h
    obtain ⟨-, harg⟩ := PatternShape.construct.inj (congrArg Pattern.shape h)
    exact absurd (congrArg Pattern.attributes (Option.some.inj harg)) nofun
  exact ⟨list [], list [flag], cell [], cell [flag], rfl, rfl, rfl, hlist, rfl, rfl, rfl, hcell⟩

end DeriveKit
