import DeriveKit.Proofs.Alignment
import DeriveKit.Text.Payload
import DeriveKit.Tree.Erase

/-!
# DeriveKit.Proofs.Flags

Attributes and extension nodes that are a name and nothing else (`Attribute.isFlag`,
`Extension.isFlag`). What is written nowhere of them is the same for all erasures, and has the same
text; so it is with types that hold no others (`TypeExpr.erase_nodeAttributes`,
`TypeExpr.render_erase`).

A node that has attributes stands in parentheses with them (`nodeText`), so the flags of a node can
be read off up to the closing one (`Attribute.aligned_renderAll`).
-/

namespace DeriveKit

/-! ## flags -/

/-- Whether the attribute is a name and nothing else. -/
def Attribute.isFlag (a : Attribute Payload) : Bool := isName a.name.value && a.payload.isEmpty

/-- Whether the extension node is a name and nothing else. -/
def Extension.isFlag (x : Extension Payload) : Bool := x.payload.isEmpty

mutual

/-- Whether all attributes and extension nodes of a type are flags. -/
def TypeExpr.isFlagged : TypeExpr Payload → Bool
  | ⟨shape, _, attributes⟩ => attributes.all Attribute.isFlag && TypeShape.isFlagged shape

/-- Whether all attributes and extension nodes of a form of type are flags. -/
def TypeShape.isFlagged : TypeShape Payload → Bool
  | .any | .var _ | .package _ => true
  | .arrow _ domain codomain => TypeExpr.isFlagged domain && TypeExpr.isFlagged codomain
  | .tuple types | .constr _ types => TypeExpr.allFlagged types
  | .object methods _ => TypeExpr.methodsFlagged methods
  | .aliased body _ | .poly _ body => TypeExpr.isFlagged body
  | .variant rows _ _ => Row.allFlagged rows
  | .extension ext => ext.isFlag

/-- Whether all attributes and extension nodes of some types are flags. -/
def TypeExpr.allFlagged : List (TypeExpr Payload) → Bool
  | [] => true
  | t :: rest => TypeExpr.isFlagged t && TypeExpr.allFlagged rest

/-- Whether all attributes and extension nodes of some methods are flags. -/
def TypeExpr.methodsFlagged : List (Located String × TypeExpr Payload) → Bool
  | [] => true
  | (_, t) :: rest => TypeExpr.isFlagged t && TypeExpr.methodsFlagged rest

/-- Whether all attributes and extension nodes of a row are flags. -/
def Row.isFlagged : Row Payload → Bool
  | ⟨.tag _ _ args, _, attributes⟩ =>
      attributes.all Attribute.isFlag && TypeExpr.allFlagged args
  | ⟨.inherit t, _, attributes⟩ => attributes.all Attribute.isFlag && TypeExpr.isFlagged t

/-- Whether all attributes and extension nodes of some rows are flags. -/
def Row.allFlagged : List (Row Payload) → Bool
  | [] => true
  | r :: rest => Row.isFlagged r && Row.allFlagged rest

end

/-! ## flags do not depend on their places -/

namespace Payload

variable {p : Payload}

/-- There is one empty payload: that without items. -/
theorem eq_of_isEmpty (h : p.isEmpty) : p = ofShape (.structure []) := by
  rw [← ofShape_shape p]
  rw [isEmpty] at h
  split at h
  case h_1 heq => rw [heq]
  case h_2 => exact absurd h Bool.false_ne_true

/-- The empty payload has no text. -/
theorem text_of_isEmpty (h : p.isEmpty) : p.text = "" := by
  rw [eq_of_isEmpty h, text, fold_ofShape]
  rfl

/-- There is nothing to erase in the empty payload. -/
theorem erase_of_isEmpty (h : p.isEmpty)
    (nodes : List (Attribute Payload) → List (Attribute Payload)) :
    p.erase nodes = p := by
  rw [eq_of_isEmpty h, erase, fold_ofShape]
  rfl

end Payload

/-- The two erasures agree on a flag, because there is nothing inside it. -/
theorem Attribute.erase_nodeAttributes {a : Attribute Payload} (h : a.isFlag) :
    a.erase .nodeAttributes = a.erase .places := by
  rw [isFlag, Bool.and_eq_true] at h
  exact congrArg (Attribute.mk a.name.erase · .generated)
    ((Payload.erase_of_isEmpty h.2 _).trans (Payload.erase_of_isEmpty h.2 _).symm)

/-- They agree on flags. -/
theorem Attribute.eraseAll_nodeAttributes {attributes : List (Attribute Payload)}
    (h : attributes.all isFlag) :
    eraseAll .nodeAttributes attributes = eraseAll .places attributes :=
  List.map_congr_left fun a ha => erase_nodeAttributes (List.all_eq_true.1 h a ha)

/-- They agree on an extension node with nothing after its name. -/
theorem Extension.erase_nodeAttributes {x : Extension Payload} (h : x.isFlag) :
    x.erase .nodeAttributes = x.erase .places :=
  congrArg (Extension.mk x.name.erase)
    ((Payload.erase_of_isEmpty h _).trans (Payload.erase_of_isEmpty h _).symm)

/-- A flag is written as its name in brackets. -/
theorem Attribute.render_of_isFlag {a : Attribute Payload} (h : a.isFlag) (marker : String) :
    a.render Payload.text marker = "[" ++ marker ++ a.name.value ++ "]" := by
  rw [isFlag, Bool.and_eq_true] at h
  rw [render, Payload.text_of_isEmpty h.2, String.append_empty]

/-- A flag without its place is a flag. -/
theorem Attribute.isFlag_erase {a : Attribute Payload} (h : a.isFlag) :
    (a.erase .places).isFlag := by
  rw [isFlag, Bool.and_eq_true] at h ⊢
  refine ⟨h.1, ?_⟩
  rw [erase]
  exact (congrArg Payload.isEmpty (Payload.erase_of_isEmpty h.2 _)).trans h.2

/-- The places of flags do not show in their texts. -/
theorem Attribute.map_render_erase {attributes : List (Attribute Payload)}
    (h : attributes.all isFlag) (marker : String) :
    (eraseAll .places attributes).map (render Payload.text marker) =
      attributes.map (render Payload.text marker) := by
  rw [eraseAll, List.map_map]
  refine List.map_congr_left fun a ha => ?_
  have hflag := List.all_eq_true.1 h a ha
  exact (render_of_isFlag (isFlag_erase hflag) marker).trans (render_of_isFlag hflag marker).symm

theorem Attribute.renderAll_erase {attributes : List (Attribute Payload)}
    (h : attributes.all isFlag) (marker : String) :
    renderAll Payload.text marker (eraseAll .places attributes) =
      renderAll Payload.text marker attributes := by
  rw [renderAll, map_render_erase h, renderAll]

/-- Nor does the place of an extension node. -/
theorem Extension.render_erase {x : Extension Payload} (h : x.isFlag) (marker : String) :
    (x.erase .places).render Payload.text marker = x.render Payload.text marker := by
  rw [render, render, erase]
  exact congrArg (fun p : Payload => "[" ++ marker ++ x.name.value ++ p.text ++ "]")
    (Payload.erase_of_isEmpty h _)

/-! ## types -/

mutual

/-- Nothing but places is erased in a type that holds nothing but flags. -/
theorem TypeExpr.erase_nodeAttributes : ∀ t : TypeExpr Payload, t.isFlagged →
    t.erase .nodeAttributes = t.erase .places
  | ⟨shape, _, attributes⟩, h => by
      rw [TypeExpr.isFlagged, Bool.and_eq_true] at h
      rw [TypeExpr.erase, TypeExpr.erase, TypeShape.erase_nodeAttributes shape h.2,
        Attribute.eraseAll_nodeAttributes h.1]

/-- Nothing but places is erased in a form of type that holds nothing but flags. -/
theorem TypeShape.erase_nodeAttributes : ∀ shape : TypeShape Payload, shape.isFlagged →
    shape.erase .nodeAttributes = shape.erase .places
  | .any, _ | .var _, _ | .package _, _ => rfl
  | .arrow _ domain codomain, h => by
      rw [TypeShape.isFlagged, Bool.and_eq_true] at h
      rw [TypeShape.erase, TypeShape.erase, TypeExpr.erase_nodeAttributes domain h.1,
        TypeExpr.erase_nodeAttributes codomain h.2]
  | .tuple elements, h => congrArg TypeShape.tuple (TypeExpr.eraseAll_nodeAttributes elements h)
  | .constr name args, h =>
      congrArg (TypeShape.constr name.erase) (TypeExpr.eraseAll_nodeAttributes args h)
  | .object methods openness, h =>
      congrArg (TypeShape.object · openness) (TypeExpr.eraseMethods_nodeAttributes methods h)
  | .aliased body name, h =>
      congrArg (TypeShape.aliased · name.erase) (TypeExpr.erase_nodeAttributes body h)
  | .variant rows openness lower, h =>
      congrArg (TypeShape.variant · openness lower) (Row.eraseAll_nodeAttributes rows h)
  | .poly vars body, h =>
      congrArg (TypeShape.poly (vars.map Located.erase)) (TypeExpr.erase_nodeAttributes body h)
  | .extension _, h => congrArg TypeShape.extension (Extension.erase_nodeAttributes h)

theorem TypeExpr.eraseAll_nodeAttributes : ∀ ts : List (TypeExpr Payload),
    TypeExpr.allFlagged ts → TypeExpr.eraseAll .nodeAttributes ts = TypeExpr.eraseAll .places ts
  | [], _ => rfl
  | t :: rest, h => by
      rw [TypeExpr.allFlagged, Bool.and_eq_true] at h
      rw [TypeExpr.eraseAll, TypeExpr.eraseAll, TypeExpr.erase_nodeAttributes t h.1,
        TypeExpr.eraseAll_nodeAttributes rest h.2]

theorem TypeExpr.eraseMethods_nodeAttributes :
    ∀ ms : List (Located String × TypeExpr Payload), TypeExpr.methodsFlagged ms →
    TypeExpr.eraseMethods .nodeAttributes ms = TypeExpr.eraseMethods .places ms
  | [], _ => rfl
  | (name, t) :: rest, h => by
      rw [TypeExpr.methodsFlagged, Bool.and_eq_true] at h
      rw [TypeExpr.eraseMethods, TypeExpr.eraseMethods, TypeExpr.erase_nodeAttributes t h.1,
        TypeExpr.eraseMethods_nodeAttributes rest h.2]

/-- Nor in a row; its attributes are those of no pattern or expression. -/
theorem Row.erase_nodeAttributes : ∀ r : Row Payload, r.isFlagged → r.erase .nodeAttributes =
    r.erase .places
  | ⟨.tag _ _ args, _, _⟩, h => by
      rw [Row.isFlagged, Bool.and_eq_true] at h
      rw [Row.erase, Row.erase, TypeExpr.eraseAll_nodeAttributes args h.2,
        Attribute.eraseAll_nodeAttributes h.1]
  | ⟨.inherit t, _, _⟩, h => by
      rw [Row.isFlagged, Bool.and_eq_true] at h
      rw [Row.erase, Row.erase, TypeExpr.erase_nodeAttributes t h.2,
        Attribute.eraseAll_nodeAttributes h.1]

theorem Row.eraseAll_nodeAttributes : ∀ rs : List (Row Payload), Row.allFlagged rs →
    Row.eraseAll .nodeAttributes rs = Row.eraseAll .places rs
  | [], _ => rfl
  | r :: rest, h => by
      rw [Row.allFlagged, Bool.and_eq_true] at h
      rw [Row.eraseAll, Row.eraseAll, Row.erase_nodeAttributes r h.1,
        Row.eraseAll_nodeAttributes rest h.2]

end

mutual

/-- The places in a type that holds nothing but flags do not show in its text. -/
theorem TypeExpr.render_erase : ∀ (t : TypeExpr Payload) (position : TypePosition), t.isFlagged →
    (t.erase .places).render Payload.text position = t.render Payload.text position
  | ⟨shape, _, []⟩, position, h => by
      rw [TypeExpr.isFlagged, Bool.and_eq_true] at h
      exact TypeShape.render_erase shape position h.2
  | ⟨shape, _, a :: rest⟩, position, h => by
      rw [TypeExpr.isFlagged, Bool.and_eq_true] at h
      have hattributes := Attribute.renderAll_erase h.1 "@"
      rw [Attribute.eraseAll, List.map_cons] at hattributes
      rw [TypeExpr.erase, Attribute.eraseAll, List.map_cons, TypeExpr.render, hattributes,
        TypeShape.render_erase shape .top h.2]
      rfl

/-- The places in a form of type do not show in its text. The cases follow those of the printer. -/
theorem TypeShape.render_erase : ∀ (shape : TypeShape Payload) (position : TypePosition),
    shape.isFlagged →
    (shape.erase .places).render Payload.text position = shape.render Payload.text position
  | .any, _, _ | .var _, _, _ | .package _, _, _ => rfl
  | .arrow label domain codomain, position, h => by
      rw [TypeShape.isFlagged, Bool.and_eq_true] at h
      rw [TypeShape.erase, TypeShape.render, TypeExpr.render_erase domain .domain h.1,
        TypeExpr.render_erase codomain .top h.2]
      rfl
  | .tuple elements, position, h => by
      rw [TypeShape.erase, TypeShape.render, TypeExpr.renderAll_erase elements .element h]
      rfl
  | .constr name [], _, _ => rfl
  | .constr name [arg], _, h => by
      rw [TypeShape.isFlagged, TypeExpr.allFlagged, Bool.and_eq_true] at h
      rw [TypeShape.erase, TypeExpr.eraseAll, TypeExpr.eraseAll, TypeShape.render,
        TypeExpr.render_erase arg .argument h.1]
      rfl
  | .constr name (arg₀ :: arg₁ :: rest), _, h => by
      have hargs := TypeExpr.renderAll_erase (arg₀ :: arg₁ :: rest) .top h
      rw [TypeExpr.eraseAll, TypeExpr.eraseAll] at hargs
      rw [TypeShape.erase, TypeExpr.eraseAll, TypeExpr.eraseAll, TypeShape.render, hargs]
      · rfl
      · exact nofun
      · exact nofun
  | .object methods openness, _, h => by
      rw [TypeShape.erase, TypeShape.render, TypeExpr.renderMethods_erase methods h]
      rfl
  | .aliased body name, position, h => by
      rw [TypeShape.erase, TypeShape.render, TypeExpr.render_erase body .domain h]
      rfl
  | .variant rows openness lower, _, h => by
      rw [TypeShape.erase, TypeShape.render, Row.renderAll_erase rows h]
      rfl
  | .poly [] body, position, h => TypeExpr.render_erase body position h
  | .poly (v :: vars) body, position, h => by
      rw [TypeShape.erase, List.map_cons, TypeShape.render, TypeExpr.render_erase body .top h,
        ← List.map_cons, List.map_map]
      · rfl
      · exact nofun
  | .extension _, _, h => Extension.render_erase h "%"

/-- Nor do those in a list of types. -/
theorem TypeExpr.renderAll_erase : ∀ (ts : List (TypeExpr Payload)) (position : TypePosition),
    TypeExpr.allFlagged ts →
    TypeExpr.renderAll Payload.text position (TypeExpr.eraseAll .places ts) =
      TypeExpr.renderAll Payload.text position ts
  | [], _, _ => rfl
  | t :: rest, position, h => by
      rw [TypeExpr.allFlagged, Bool.and_eq_true] at h
      rw [TypeExpr.eraseAll, TypeExpr.renderAll, TypeExpr.render_erase t position h.1,
        TypeExpr.renderAll_erase rest position h.2]
      rfl

theorem TypeExpr.renderMethods_erase : ∀ ms : List (Located String × TypeExpr Payload),
    TypeExpr.methodsFlagged ms →
    TypeExpr.renderMethods Payload.text (TypeExpr.eraseMethods .places ms) =
      TypeExpr.renderMethods Payload.text ms
  | [], _ => rfl
  | (name, t) :: rest, h => by
      rw [TypeExpr.methodsFlagged, Bool.and_eq_true] at h
      rw [TypeExpr.eraseMethods, TypeExpr.renderMethods, TypeExpr.render_erase t .top h.1,
        TypeExpr.renderMethods_erase rest h.2]
      rfl

/-- Nor do those in a row. -/
theorem Row.render_erase : ∀ r : Row Payload, r.isFlagged →
    (r.erase .places).render Payload.text = r.render Payload.text
  | ⟨.tag label _ [], _, _⟩, h => by
      rw [Row.isFlagged, Bool.and_eq_true] at h
      rw [Row.erase, TypeExpr.eraseAll, Row.render, Attribute.renderAll_erase h.1]
      rfl
  | ⟨.tag label constant (arg :: rest), _, _⟩, h => by
      rw [Row.isFlagged, Bool.and_eq_true] at h
      have hargs := TypeExpr.renderAll_erase (arg :: rest) .domain h.2
      rw [TypeExpr.eraseAll] at hargs
      rw [Row.erase, TypeExpr.eraseAll, Row.render, hargs, Attribute.renderAll_erase h.1]
      · rfl
      · exact nofun
  | ⟨.inherit t, _, _⟩, h => by
      rw [Row.isFlagged, Bool.and_eq_true] at h
      rw [Row.erase, Row.render, TypeExpr.render_erase t .top h.2, Attribute.renderAll_erase h.1]
      rfl

theorem Row.renderAll_erase : ∀ rs : List (Row Payload), Row.allFlagged rs →
    Row.renderAll Payload.text (Row.eraseAll .places rs) = Row.renderAll Payload.text rs
  | [], _ => rfl
  | r :: rest, h => by
      rw [Row.allFlagged, Bool.and_eq_true] at h
      rw [Row.eraseAll, Row.renderAll, Row.render_erase r h.1, Row.renderAll_erase rest h.2]
      rfl

end

/-! ## trees that differ in the attributes of patterns and expressions -/

/-- Flags that are the same once stripped are the same but for their places, and have the same
texts. -/
theorem Attribute.same_of_stripped {attributes attributes' : List (Attribute Payload)}
    (h : attributes.all isFlag) (h' : attributes'.all isFlag)
    (hstripped : eraseAll .nodeAttributes attributes = eraseAll .nodeAttributes attributes') :
    eraseAll .places attributes = eraseAll .places attributes' ∧
      ∀ marker, attributes.map (render Payload.text marker) =
        attributes'.map (render Payload.text marker) := by
  rw [eraseAll_nodeAttributes h, eraseAll_nodeAttributes h'] at hstripped
  refine ⟨hstripped, fun marker => ?_⟩
  rw [← map_render_erase h, hstripped, map_render_erase h']

/-- Extension nodes without payloads that are the same once stripped are the same but for their
places. -/
theorem Extension.same_of_stripped {x x' : Extension Payload} (h : x.isFlag) (h' : x'.isFlag)
    (hstripped : x.erase .nodeAttributes = x'.erase .nodeAttributes) :
    x.erase .places = x'.erase .places ∧
      ∀ marker, x.render Payload.text marker = x'.render Payload.text marker := by
  rw [erase_nodeAttributes h, erase_nodeAttributes h'] at hstripped
  refine ⟨hstripped, fun marker => ?_⟩
  rw [← render_erase h, hstripped, render_erase h']

/-- Types that hold nothing but flags and are the same once stripped are the same but for their
places. -/
theorem TypeExpr.same_of_stripped {t t' : TypeExpr Payload} (h : t.isFlagged) (h' : t'.isFlagged)
    (hstripped : t.erase .nodeAttributes = t'.erase .nodeAttributes) :
    t.erase .places = t'.erase .places ∧
      ∀ position, t.render Payload.text position = t'.render Payload.text position := by
  rw [erase_nodeAttributes t h, erase_nodeAttributes t' h'] at hstripped
  refine ⟨hstripped, fun position => ?_⟩
  rw [← render_erase t position h, hstripped, render_erase t' position h']

/-! ## attributes after a node -/

/-- Flags are told apart by their names. -/
theorem Attribute.erase_eq_erase {a a' : Attribute Payload} (h : a.isFlag) (h' : a'.isFlag)
    (hname : a.name.value = a'.name.value) : a.erase .places = a'.erase .places := by
  rw [isFlag, Bool.and_eq_true] at h h'
  rw [erase, erase, Located.erase, Located.erase, hname, Payload.eq_of_isEmpty h.2,
    Payload.eq_of_isEmpty h'.2]

/-- Flags before a closing parenthesis are told apart by their names. -/
theorem Attribute.aligned_renderAll : ∀ {attributes attributes' : List (Attribute Payload)},
    attributes.all isFlag → attributes'.all isFlag →
    Aligned (eraseAll .places attributes = eraseAll .places attributes')
      (renderAll Payload.text "@" attributes ++ ")") (renderAll Payload.text "@" attributes' ++ ")")
  | [], [], _, _ => .refl rfl _
  | [], _ :: _, _, _ | _ :: _, [], _, _ => fun s s' heq => by
      simp [renderAll, leadEach, render] at heq
  | a :: rest, a' :: rest', h, h' => by
      rw [List.all_cons, Bool.and_eq_true] at h h'
      have hname : Aligned (a.name.value = a'.name.value) (a.name.value ++ "]")
        (a'.name.value ++ "]") :=
        .of_reads (reads_readName (Bool.and_eq_true _ _ ▸ h.1).1)
          (reads_readName (Bool.and_eq_true _ _ ▸ h'.1).1) fun _ => rfl
      have hrest := aligned_renderAll h.2 h'.2
      have htext : ∀ (b : Attribute Payload) (bs : List (Attribute Payload)), b.isFlag →
          renderAll Payload.text "@" (b :: bs) ++ ")" =
            " [@" ++ ((b.name.value ++ "]") ++ (renderAll Payload.text "@" bs ++ ")")) := by
        intro b bs hb
        rw [renderAll, List.map_cons, leadEach, render_of_isFlag hb]
        apply String.toList_injective
        simp [renderAll]
      rw [htext a rest h.1, htext a' rest' h'.1]
      refine ((hname.append hrest).lead _).imp fun hQ => ?_
      rw [eraseAll, eraseAll, List.map_cons, List.map_cons, erase_eq_erase h.1 h'.1 hQ.1]
      exact congrArg _ hQ.2

/-- What may stand after a node: not an attribute, and no closing parenthesis either unless the
texts that are compared are wrapped in the `same` way. -/
def GoesOn (same : Prop) (s : List Char) : Prop :=
  expect " [@" s = none ∧ (same ∨ expect ")" s = none)

section

variable {same : Prop} {w : String}

/-- A text goes on with a word that does not begin as an attribute does, nor as a closing bracket if
that matters (`GoesOn`). -/
theorem goesOn_of_clash (h : clash " [@".toList w.toList)
    (hclosing : same ∨ clash ")".toList w.toList) (s : List Char) : GoesOn same (w.toList ++ s) :=
  ⟨expect_of_clash h s, hclosing.imp_right fun h => expect_of_clash h s⟩

/-- It is enough to look at the first word of what follows. -/
theorem goesOn_append (h : clash " [@".toList w.toList)
    (hclosing : same ∨ clash ")".toList w.toList) (t : String) (s : List Char) :
    GoesOn same ((w ++ t).toList ++ s) := by
  rw [String.toList_append, List.append_assoc]
  exact goesOn_of_clash h hclosing _

end

/-- What is no closing parenthesis at all may stand after texts in any position. -/
theorem GoesOn.weaken {same : Prop} {s : List Char} (hs : GoesOn False s) : GoesOn same s :=
  ⟨hs.1, .inr (hs.2.resolve_left not_false)⟩

/-- What goes on is not the end of a text in brackets, attributes included. -/
theorem GoesOn.ne_closing {same : Prop} {s : List Char} (hs : GoesOn same s)
    {attributes : List (Attribute Payload)} (h : attributes ≠ [] ∨ ¬same) (s' : List Char) :
    s ≠ (Attribute.renderAll Payload.text "@" attributes ++ ")").toList ++ s' := by
  rintro rfl
  cases attributes with
  | nil =>
      obtain hsame | hclosing := hs.2
      · exact h.elim (· rfl) (· hsame)
      · simp [Attribute.renderAll, leadEach, expect, dropLead] at hclosing
  | cons a rest =>
      have hattribute := hs.1
      simp [Attribute.renderAll, Attribute.render, leadEach, expect, dropLead] at hattribute

/-- Source text of a node, given the text of its form: in parentheses if there are attributes. -/
def nodeText (attributes : List (Attribute Payload)) (wrap : Bool) (body : String) : String :=
  if attributes.isEmpty then parens wrap body
  else "(" ++ body ++ Attribute.renderAll Payload.text "@" attributes ++ ")"

/-- A node with attributes or in parentheses is written in brackets (`nodeText`). -/
theorem nodeText_of_wrapped {attributes : List (Attribute Payload)} {wrap : Bool}
    (h : attributes ≠ [] ∨ wrap = true) (body : String) :
    nodeText attributes wrap body =
      "(" ++ (body ++ (Attribute.renderAll Payload.text "@" attributes ++ ")")) := by
  rw [nodeText]
  cases attributes with
  | nil =>
      obtain rfl := h.resolve_left (· rfl)
      simp [parens, Attribute.renderAll, leadEach, String.append_assoc]
  | cons a rest => simp [String.append_assoc]

/-- A node is written plainly or in brackets. -/
theorem plain_or_wrapped (attributes : List (Attribute Payload)) (wrap : Bool) :
    (attributes = [] ∧ wrap = false) ∨ (attributes ≠ [] ∨ wrap = true) := by
  cases wrap <;> simp [Classical.em]

/-- A text is told apart from one in brackets with the same inside. -/
theorem Tells.plain_framed {wide : Bool} {attributes : List (Attribute Payload)} {wrap : Bool}
    {same Q R : Prop} {t t' : String} (ht : Tells wide (fun _ => True) Q t t')
    (h : attributes ≠ [] ∨ ¬same) (hwrap : attributes ≠ [] ∨ wrap = true) :
    Tells wide (GoesOn same) R t (nodeText attributes wrap t') := by
  rw [nodeText_of_wrapped hwrap]
  refine plain_bracketed (ht.unshifted.append_right (fun _ _ => trivial) _)
    (ht.unshifted_symm.append_left fun _ => trivial) (fun s s' hs heq => ?_) (by decide)
  rw [String.toList_append, List.append_assoc] at heq
  exact hs.ne_closing h s' (ht.aligned s _ heq).2

/-- If the texts of two forms tell them apart, so do those in brackets, whatever follows them. -/
theorem Tells.both_framed {wide : Bool} {further : List Char → Prop}
    {attributes attributes' : List (Attribute Payload)} (h : attributes.all Attribute.isFlag)
    (h' : attributes'.all Attribute.isFlag) {wrap wrap' : Bool}
    (hwrap : attributes ≠ [] ∨ wrap = true) (hwrap' : attributes' ≠ [] ∨ wrap' = true) {Q : Prop}
    {t t' : String} (ht : Tells wide (fun _ => True) Q t t') :
    Tells wide further
      (Q ∧ Attribute.eraseAll .places attributes = Attribute.eraseAll .places attributes')
      (nodeText attributes wrap t) (nodeText attributes' wrap' t') := by
  rw [nodeText_of_wrapped hwrap, nodeText_of_wrapped hwrap']
  exact (ht.follow (fun _ => trivial) (fun _ => trivial)
    (Attribute.aligned_renderAll h h')).bracket (by decide)

/-- If the texts of two forms tell them apart, so do their texts with flags. -/
theorem Tells.framed {wide : Bool} {attributes attributes' : List (Attribute Payload)}
    (h : attributes.all Attribute.isFlag) (h' : attributes'.all Attribute.isFlag)
    {wrap wrap' : Bool} {same : Prop} (hsame : same → wrap = wrap') {Q : Prop} {t t' : String}
    (ht : Tells wide (fun _ => True) Q t t') :
    Tells wide (GoesOn same)
      (Q ∧ Attribute.eraseAll .places attributes = Attribute.eraseAll .places attributes')
      (nodeText attributes wrap t) (nodeText attributes' wrap' t') := by
  obtain ⟨rfl, rfl⟩ | hwrap := plain_or_wrapped attributes wrap <;>
    obtain ⟨rfl, rfl⟩ | hwrap' := plain_or_wrapped attributes' wrap'
  · exact (ht.imp fun hQ => ⟨hQ, rfl⟩).mono fun _ _ => trivial
  · refine ht.plain_framed ?_ hwrap'
    exact hwrap'.imp_right fun hwrap' hs => absurd (hsame hs) (by simp [hwrap'])
  · refine (ht.symm.plain_framed ?_ hwrap).symm
    exact hwrap.imp_right fun hwrap hs => absurd (hsame hs) (by simp [hwrap])
  · exact ht.both_framed h h' hwrap hwrap'

end DeriveKit
