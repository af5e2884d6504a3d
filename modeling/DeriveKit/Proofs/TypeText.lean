import DeriveKit.Proofs.TypeForms

/-!
# DeriveKit.Proofs.TypeText

The text of a type says which type it is.

* `TypeExpr.readsAt` — what is read off the text of a type in any position is the type, but for
  where it was written;
* `TypeExpr.ofText_text` — the text as a whole is read up to its end;
* `types_are_unambiguous` — the result: a reader gives every type back, so no two types have the
  same text.
-/

namespace DeriveKit

variable {π ρ : Type} (pay : π → String) (E : Erasure π ρ)

mutual

/-- The text of a type in any position is read back. -/
theorem TypeExpr.readsAt : ∀ t : TypeExpr π, t.isLegible → ∀ position,
    TypeExpr.ReadsAt position (t.render pay position) (t.erase E)
  | ⟨shape, _, []⟩, h, position => TypeShape.readsAt shape h position
  | ⟨_, _, _ :: _⟩, h, _ => absurd h Bool.false_ne_true

/-- The shape of a legible type is read back in any position, with or without parentheses. -/
theorem TypeShape.readsAt : ∀ shape : TypeShape π, shape.isLegible → ∀ position,
    TypeExpr.ReadsAt position (shape.render pay position) (TypeExpr.made (shape.erase E))
  | .any, _, position => TypeExpr.readsAtom_any.operand.at position
  | .var name, h, position => (TypeExpr.readsAtom_var h).operand.at position
  | .arrow label domain codomain, h, position => by
      simp only [TypeShape.isLegible, Bool.and_eq_true] at h
      exact (TypeExpr.readsType_arrow (TypeExpr.readsAt domain h.1.2 .domain)
        (TypeExpr.readsAt codomain h.2 .top) h.1.1).at position
  | .tuple elements, h, position => by
      simp only [TypeShape.isLegible, Bool.and_eq_true, decide_eq_true_eq] at h
      have helements := TypeExpr.readsAllAt elements h.2
      simp only [TypeShape.render, TypeShape.erase, TypeExpr.renderAll_eq_map,
        TypeExpr.eraseAll_eq_map]
      exact (TypeExpr.readsProduct_tuple (fun t ht => helements t ht .element) h.1).at position
  | .constr name args, h, position => by
      simp only [TypeShape.isLegible, Bool.and_eq_true] at h
      have hargs := TypeExpr.readsAllAt args h.2
      match args with
      | [] => exact (TypeExpr.readsAtom_named h.1).operand.at position
      | [arg] => exact ((hargs arg (by simp) .argument).applied h.1).at position
      | first :: second :: rest =>
          simp only [TypeShape.render, TypeShape.erase, TypeExpr.renderAll_eq_map,
            TypeExpr.eraseAll_eq_map]
          exact (TypeExpr.readsAtom_constr (fun t ht => hargs t ht .top) (by simp) h.1).operand.at
            position
  | .object methods openness, h, position => by
      have hmethods := TypeExpr.readsMethods methods h
      simp only [TypeShape.render, TypeShape.erase, TypeExpr.renderMethods_eq_map,
        TypeExpr.eraseMethods_eq_map]
      exact (TypeExpr.readsAtom_object hmethods openness).operand.at position
  | .aliased body name, h, position => by
      simp only [TypeShape.isLegible, Bool.and_eq_true] at h
      exact (TypeExpr.readsType_aliased (TypeExpr.readsAt body h.2 .domain) h.1).at position
  | .variant rows openness lower, h, position => by
      simp only [TypeShape.isLegible, Bool.and_eq_true] at h
      have hrows := Row.readsAll rows h.2
      simp only [TypeShape.render, TypeShape.erase, Row.renderAll_eq_map, Row.eraseAll_eq_map]
      exact (TypeExpr.readsAtom_variant hrows h.1).operand.at position
  | .poly vars body, h, position => by
      simp only [TypeShape.isLegible, Bool.and_eq_true, List.all_eq_true] at h
      obtain ⟨⟨hvars, hnames⟩, hbody⟩ := h
      have hread := TypeExpr.readsAt body hbody .top
      match vars with
      | v :: vs =>
          have hvalues : ∀ w ∈ v.value :: vs.map (·.value), isName w := by simpa using hnames
          have hpoly := TypeExpr.readsType_poly hread hvalues
          rw [← List.map_cons (f := Located.value), List.map_map, List.map_map] at hpoly
          exact hpoly.at position
  | .package name, h, position => (TypeExpr.readsAtom_package h).operand.at position
  | .extension _, h, _ => absurd h Bool.false_ne_true

theorem TypeExpr.readsAllAt : ∀ ts : List (TypeExpr π), TypeExpr.allLegible ts →
    ∀ t ∈ ts, ∀ position, TypeExpr.ReadsAt position (t.render pay position) (t.erase E)
  | [], _ => by simp
  | t :: rest, h => by
      rw [TypeExpr.allLegible, Bool.and_eq_true] at h
      exact List.forall_mem_cons.2 ⟨TypeExpr.readsAt t h.1, TypeExpr.readsAllAt rest h.2⟩

theorem TypeExpr.readsMethods : ∀ ms : List (Located String × TypeExpr π),
    TypeExpr.methodsLegible ms → ∀ m ∈ ms, isName m.1.value ∧
      TypeExpr.ReadsType (m.2.render pay .top) (m.2.erase E)
  | [], _ => by simp
  | (_, t) :: rest, h => by
      simp only [TypeExpr.methodsLegible, Bool.and_eq_true] at h
      exact List.forall_mem_cons.2 ⟨⟨h.1.1, TypeExpr.readsAt t h.1.2 .top⟩,
        TypeExpr.readsMethods rest h.2⟩

/-- A legible row is read back. -/
theorem Row.reads : ∀ r : Row π, r.isLegible → TypeExpr.ReadsRow (r.render pay) (r.erase E)
  | ⟨.tag label constant args, _, attributes⟩, h => by
      simp only [Row.isLegible, Bool.and_eq_true] at h
      obtain ⟨⟨⟨hattributes, hlabel⟩, hconstant⟩, hargs⟩ := h
      obtain rfl := List.isEmpty_iff.1 hattributes
      have hread := TypeExpr.readsAllAt args hargs
      match args with
      | [] =>
          obtain rfl : constant = true := by simpa using hconstant
          have hrow := TypeExpr.readsRow_tag (ρ := ρ) hlabel
          rw [← String.append_empty (s := "`" ++ label.value)] at hrow
          exact hrow
      | first :: rest =>
          have hrow := TypeExpr.readsRow_tag_args hlabel (f := TypeExpr.render pay .domain)
            (fun t ht => (hread t ht .domain).type) (List.cons_ne_nil first rest) constant
          rw [← TypeExpr.renderAll_eq_map, ← TypeExpr.eraseAll_eq_map,
            ← String.append_empty (s := _ ++ _)]
            at hrow
          exact hrow
  | ⟨.inherit t, _, attributes⟩, h => by
      simp only [Row.isLegible, Bool.and_eq_true] at h
      obtain rfl := List.isEmpty_iff.1 h.1
      have hrow := TypeExpr.readsRow_inherit (TypeExpr.readsAt t h.2 .top)
      rw [← String.append_empty (s := TypeExpr.render pay .top t)] at hrow
      exact hrow

theorem Row.readsAll : ∀ rs : List (Row π), Row.allLegible rs →
    ∀ r ∈ rs, TypeExpr.ReadsRow (r.render pay) (r.erase E)
  | [], _ => by simp
  | r :: rest, h => by
      rw [Row.allLegible, Bool.and_eq_true] at h
      exact List.forall_mem_cons.2 ⟨Row.reads r h.1, Row.readsAll rest h.2⟩

end

/-- The text of a legible type is read back, but for where the type was written. -/
theorem TypeExpr.ofText_text {t : TypeExpr Payload} (h : t.isLegible) :
    TypeExpr.ofText t.text = some t.unplaced := by
  have hread : TypeExpr.read (t.text.length + 1) t.text.toList = some (t.unplaced, []) := by
    have hread := TypeExpr.readsAt Payload.text .places t h .top _ (Nat.lt_succ_self _) [] .nil
    rwa [List.append_nil] at hread
  rw [TypeExpr.ofText, hread]

/-- The text of a legible type says which type it is: there is a reader that gives every such type
back, but for where it was written, so types with equal texts are equal but for that. -/
theorem types_are_unambiguous :
    (∀ t : TypeExpr Payload, t.isLegible → TypeExpr.ofText t.text = some t.unplaced) ∧
      ∀ t u : TypeExpr Payload, t.isLegible → u.isLegible → t.text = u.text →
        t.unplaced = u.unplaced := by
  refine ⟨fun t h => TypeExpr.ofText_text h, fun t u ht hu htext => ?_⟩
  have hread : some t.unplaced = some u.unplaced := by
    rw [← TypeExpr.ofText_text ht, htext, TypeExpr.ofText_text hu]
  exact Option.some.inj hread

/-- An alias for a function type with a quantified argument, written at one place and at another. -/
theorem types_are_unambiguous_moved :
    let t (span : Span) : TypeExpr Payload :=
      .aliased (.arrow (.poly ["a"] (.var "a" span) span)
        (.constr (.ofDotted "M.t") [.tuple [.named "x" span, .named "y" span] span] span) span)
        "b" span
    ((t ⟨1, 9⟩).isLegible ∧ TypeExpr.ofText (t ⟨1, 9⟩).text = some (t ⟨1, 9⟩).unplaced) ∧
      (t ⟨4, 7⟩).isLegible ∧ (t ⟨1, 9⟩).text = (t ⟨4, 7⟩).text ∧
        (t ⟨1, 9⟩).unplaced = (t ⟨4, 7⟩).unplaced := by
  intro t
  have hfirst : (t ⟨1, 9⟩).isLegible := by decide +kernel
  have hsecond : (t ⟨4, 7⟩).isLegible := by decide +kernel
  exact ⟨⟨hfirst, types_are_unambiguous.1 _ hfirst⟩, hsecond, rfl,
    types_are_unambiguous.2 _ _ hfirst hsecond rfl⟩

end DeriveKit
