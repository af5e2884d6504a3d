import DeriveKit.Proofs.ArgumentShape
import DeriveKit.Text.Expr

/-!
# DeriveKit.Proofs.ListLiterals

List literals as they are written and as they are read. The text of an expression is a list literal
if its spine is that of one and no list constructor on it carries an attribute
(`Expr.writtenElements?`); as an argument it is a list whatever attributes there are
(`Expr.listElements?`). So what is written as a list is read as one with the same elements, and only
attributes on the spine keep what is read as a list from being written as one
(`Expr.writtenElements?_eq_some_iff`). What is read as a list is what `Expr.list` builds, up to the
places and attributes of the spine (`Expr.plainSpine_eq_list_iff`).
-/

namespace DeriveKit

variable {π : Type}

namespace Expr

/-! ## lists that are written -/

/-- The elements of an expression that is written as a list literal. Its list constructors carry no
attributes; the pairs that they are applied to may carry some. -/
def writtenElements? : Expr π → Option (List (Expr π))
  | ⟨.construct name none, _, []⟩ => if name.value = ⟨[], "[]"⟩ then some [] else none
  | ⟨.construct name (some ⟨.tuple [head, tail], _, _⟩), _, []⟩ =>
      if name.value = ⟨[], "::"⟩ then (writtenElements? tail).map (head :: ·) else none
  | _ => none

/-- An expression with attributes of its own is not written as a list literal. -/
theorem writtenElements?_of_attributes {e : Expr π} (h : e.attributes ≠ []) :
    e.writtenElements? = none := by
  obtain ⟨shape, span, attributes⟩ := e
  rw [writtenElements?.eq_def]
  split <;> simp_all

/-- The printer takes the texts of these elements for the parts of a list literal. -/
theorem renderElements?_shape (pay : π → String) {e : Expr π} (h : e.attributes = []) :
    e.shape.renderElements? pay = e.writtenElements?.map (List.map (render pay .element)) := by
  induction e using writtenElements?.induct with
  | case1 name span hnil =>
      have hprinter : name.value.isNil := QualName.isNil_iff.2 hnil
      rw [writtenElements?, if_pos hnil, ExprShape.renderElements?, if_pos hprinter]
      rfl
  | case2 name span hnil =>
      have hprinter : ¬ name.value.isNil := mt QualName.isNil_iff.1 hnil
      rw [writtenElements?, if_neg hnil, ExprShape.renderElements?, if_neg hprinter]
      rfl
  | case3 name head tail span' attributes' span hcons ih =>
      have hprinter : name.value.isCons := QualName.isCons_iff.2 hcons
      obtain ⟨shape, place, attributes⟩ := tail
      cases attributes with
      | nil =>
          have hrest : shape.renderElements? pay =
              (writtenElements? ⟨shape, place, []⟩).map (List.map (render pay .element)) := ih rfl
          rw [writtenElements?, if_pos hcons, ExprShape.renderElements?, if_pos hprinter, hrest]
          cases writtenElements? ⟨shape, place, []⟩ <;> rfl
      | cons a rest =>
          have hrest : writtenElements? ⟨shape, place, a :: rest⟩ = none :=
            writtenElements?_of_attributes (by simp)
          rw [writtenElements?, if_pos hcons, hrest, ExprShape.renderElements?]
          · rfl
          · nofun
          · nofun
  | case4 name head tail span' attributes' span hcons =>
      have hprinter : ¬ name.value.isCons := mt QualName.isCons_iff.1 hcons
      obtain ⟨shape, place, attributes⟩ := tail
      rw [writtenElements?, if_neg hcons, ExprShape.renderElements?.eq_def]
      split <;> simp_all
  | case5 e hnil hcons =>
      obtain ⟨shape, span, attributes⟩ := e
      cases h
      rw [writtenElements?, ExprShape.renderElements?]
      · rfl
      · exact fun name heq => hnil name span (congrArg (Expr.mk · span []) heq)
      · exact fun name head tail place span' attributes heq =>
          hcons name head ⟨tail, place, []⟩ span' attributes span (congrArg (Expr.mk · span []) heq)
      · exact hnil
      · exact hcons

/-! ## the spine -/

/-- The list constructors on the spine of an expression: each `::` that is applied to a pair, and
the final `[]`. -/
def spine : Expr π → List (Expr π)
  | ⟨.construct name none, span, attributes⟩ =>
      if name.value = ⟨[], "[]"⟩ then [⟨.construct name none, span, attributes⟩] else []
  | ⟨.construct name (some ⟨.tuple [head, tail], span', attributes'⟩), span, attributes⟩ =>
      if name.value = ⟨[], "::"⟩ then
        ⟨.construct name (some ⟨.tuple [head, tail], span', attributes'⟩), span, attributes⟩ ::
          spine tail
      else []
  | _ => []

/-- A list literal is written as one exactly if no list constructor on its spine carries an
attribute. -/
theorem IsListOf.writtenElements?_eq_some_iff {e : Expr π} {elements : List (Expr π)}
    (h : e.IsListOf elements) :
    e.writtenElements? = some elements ↔ ∀ node ∈ e.spine, node.attributes = [] := by
  induction h with
  | nil hname span attributes =>
      rw [spine, if_pos hname]
      cases attributes <;> simp [writtenElements?, hname]
  | cons hname head htail span span' attributes attributes' ih =>
      rw [spine, if_pos hname, List.forall_mem_cons, ← ih]
      cases attributes with
      | nil => simp [writtenElements?, hname]
      | cons a rest => simp [writtenElements?]

/-- What is written as a list literal is one. -/
theorem isListOf_of_writtenElements? {e : Expr π} {elements : List (Expr π)}
    (h : e.writtenElements? = some elements) : e.IsListOf elements := by
  induction e using writtenElements?.induct generalizing elements with
  | case1 name span hnil =>
      rw [writtenElements?, if_pos hnil] at h
      obtain rfl := Option.some.inj h
      exact .nil hnil span []
  | case2 name span hnil =>
      rw [writtenElements?, if_neg hnil] at h
      cases h
  | case3 name head tail span' attributes' span hcons ih =>
      rw [writtenElements?, if_pos hcons] at h
      obtain ⟨rest, hrest, rfl⟩ := Option.map_eq_some_iff.1 h
      exact .cons hcons head (ih hrest) span span' [] attributes'
  | case4 name head tail span' attributes' span hcons =>
      rw [writtenElements?, if_neg hcons] at h
      cases h
  | case5 e hnil hcons =>
      rw [writtenElements?] at h
      · cases h
      · exact hnil
      · exact hcons

/-- What is written as a list is what is read as one, without attributes on the spine. -/
theorem writtenElements?_eq_some_iff {e : Expr π} {elements : List (Expr π)} :
    e.writtenElements? = some elements ↔
      e.IsListOf elements ∧ ∀ node ∈ e.spine, node.attributes = [] := by
  constructor
  · intro h
    have hlist := isListOf_of_writtenElements? h
    exact ⟨hlist, hlist.writtenElements?_eq_some_iff.1 h⟩
  · rintro ⟨hlist, hspine⟩
    exact hlist.writtenElements?_eq_some_iff.2 hspine

/-! ## lists that are built -/

/-- The expression with nothing on its spine but names: the list constructors, their names and the
pairs that they are applied to are moved to one place and lose their attributes. The elements stay
as they are. -/
def plainSpine : Expr π → Expr π
  | ⟨.construct name none, span, attributes⟩ =>
      if name.value = ⟨[], "[]"⟩ then ⟨.construct ⟨name.value, .generated⟩ none, .generated, []⟩
      else ⟨.construct name none, span, attributes⟩
  | ⟨.construct name (some ⟨.tuple [head, tail], span', attributes'⟩), span, attributes⟩ =>
      if name.value = ⟨[], "::"⟩ then
        ⟨.construct ⟨name.value, .generated⟩
          (some ⟨.tuple [head, plainSpine tail], .generated, []⟩), .generated, []⟩
      else ⟨.construct name (some ⟨.tuple [head, tail], span', attributes'⟩), span, attributes⟩
  | e => e

/-- A list literal with a plain spine is built from its elements. -/
theorem IsListOf.plainSpine_eq {e : Expr π} {elements : List (Expr π)} (h : e.IsListOf elements) :
    e.plainSpine = list elements .generated := by
  induction h with
  | nil hname =>
      rw [plainSpine, if_pos hname, hname]
      rfl
  | cons hname head htail span span' attributes attributes' ih =>
      rw [plainSpine, if_pos hname, hname, ih]
      rfl

/-- Making the spine plain makes no list of what was none. -/
theorem isListOf_of_plainSpine {e : Expr π} {elements : List (Expr π)}
    (h : e.plainSpine.IsListOf elements) : e.IsListOf elements := by
  induction e using plainSpine.induct generalizing elements with
  | case1 name span attributes hnil =>
      rw [plainSpine, if_pos hnil] at h
      cases h
      exact .nil hnil span attributes
  | case2 name span attributes hnil => rwa [plainSpine, if_neg hnil] at h
  | case3 name head tail span' attributes' span attributes hcons ih =>
      rw [plainSpine, if_pos hcons] at h
      cases h with
      | cons _ _ htail =>
          exact .cons hcons head (ih htail) span span' attributes attributes'
  | case4 name head tail span' attributes' span attributes hcons =>
      rwa [plainSpine, if_neg hcons] at h
  | case5 e hnil hcons =>
      rw [plainSpine] at h
      · exact h
      · exact hnil
      · exact hcons

/-- What is read as a list differs from what is built only in the places and attributes of its
spine. -/
theorem plainSpine_eq_list_iff {e : Expr π} {elements : List (Expr π)} (span : Span) :
    e.plainSpine = (list elements span).plainSpine ↔ e.IsListOf elements := by
  rw [(isListOf_list elements span).plainSpine_eq]
  constructor
  · intro h
    refine isListOf_of_plainSpine ?_
    rw [h]
    exact isListOf_list elements .generated
  · exact IsListOf.plainSpine_eq

/-! ## the two ways -/

/-- **The printer and the decoder tell lists in the same way.** What the printer writes as a list
literal is a list argument with the same elements, and a list argument is written as a list literal
unless a list constructor on its spine carries an attribute. List arguments are what is built from
their elements, up to the places and attributes of the spine. -/
theorem lists_are_told_alike (e : Expr π) (elements : List (Expr π)) :
    (∀ pay : π → String, (if e.attributes.isEmpty then e.shape.renderElements? pay else none) =
      e.writtenElements?.map (List.map (render pay .element))) ∧
    (e.writtenElements? = some elements ↔
      e.asArgument = .list elements ∧ ∀ node ∈ e.spine, node.attributes = []) ∧
    ∀ span, e.asArgument = .list elements ↔ e.plainSpine = (list elements span).plainSpine := by
  refine ⟨fun pay => ?_, ?_, fun span => ?_⟩
  · split
    case isTrue h => exact renderElements?_shape pay (List.isEmpty_iff.1 h)
    case isFalse h =>
        rw [writtenElements?_of_attributes fun hnil => h (List.isEmpty_iff.2 hnil)]
        rfl
  · rw [asArgument_eq_list_iff, writtenElements?_eq_some_iff]
  · rw [asArgument_eq_list_iff, plainSpine_eq_list_iff]

end Expr

end DeriveKit
