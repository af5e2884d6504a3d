import DeriveKit.Argument.Shape

/-!
# DeriveKit.Proofs.ArgumentShape

When an expression is an argument of each kind, one lemma for each of the kinds that
`Expr.asArgument` tells apart.

A list literal is a chain of pairs that ends in the empty list (`Expr.IsListOf`), and the loop that
collects its elements (`Expr.listElements?`) succeeds on nothing else. Literals, truth values and
tags are told by their form alone; `Expr.asList_cases` keeps the constructors that are no truth
value apart from them.
-/

namespace DeriveKit

variable {π : Type}

/-! ## list literals -/

/-- The expression is the list literal with these elements, whatever attributes its parts carry. -/
inductive Expr.IsListOf : Expr π → List (Expr π) → Prop
  | nil {name : Located QualName} (h : name.value = ⟨[], "[]"⟩) (span : Span)
      (attributes : List (Attribute π)) : IsListOf ⟨.construct name none, span, attributes⟩ []
  | cons {name : Located QualName} (h : name.value = ⟨[], "::"⟩) (head : Expr π) {tail : Expr π}
      {elements : List (Expr π)} (htail : IsListOf tail elements) (span span' : Span)
      (attributes attributes' : List (Attribute π)) :
      IsListOf ⟨.construct name (some ⟨.tuple [head, tail], span', attributes'⟩), span, attributes⟩
        (head :: elements)

namespace Expr

/-- The elements that are read off an expression are those of the literal that it is. -/
theorem listElements?_eq_some_iff {e : Expr π} {elements : List (Expr π)} :
    e.listElements? = some elements ↔ e.IsListOf elements := by
  constructor
  · intro h
    induction e using listElements?.induct generalizing elements with
    | case1 name span attributes hnil =>
        rw [listElements?, if_pos hnil] at h
        obtain rfl := Option.some.inj h
        exact .nil hnil span attributes
    | case2 name span attributes hnil =>
        rw [listElements?, if_neg hnil] at h
        cases h
    | case3 name head tail span' attributes' span attributes hcons ih =>
        rw [listElements?, if_pos hcons] at h
        obtain ⟨rest, hrest, rfl⟩ := Option.map_eq_some_iff.1 h
        exact .cons hcons head (ih hrest) span span' attributes attributes'
    | case4 name head tail span' attributes' span attributes hcons =>
        rw [listElements?, if_neg hcons] at h
        cases h
    | case5 e hnil hcons =>
        rw [listElements?] at h
        · cases h
        · exact hnil
        · exact hcons
  · intro h
    induction h with
    | @nil name h =>
        have hnil : name.value = .simple "[]" := h
        rw [listElements?, if_pos hnil]
    | @cons name h head tail elements htail span span' attributes attributes' ih =>
        have hcons : name.value = .simple "::" := h
        rw [listElements?, if_pos hcons, ih]
        rfl

/-- A list literal has its elements in one way only. -/
theorem IsListOf.unique {e : Expr π} {es es' : List (Expr π)} (h : e.IsListOf es)
    (h' : e.IsListOf es') : es = es' := by
  rw [← listElements?_eq_some_iff] at h h'
  exact Option.some.inj (h.symm.trans h')

/-- What is built from elements is a list literal of them. -/
theorem isListOf_list (elements : List (Expr π)) (span : Span) :
    (list elements span).IsListOf elements := by
  induction elements with
  | nil => exact .nil rfl span []
  | cons head rest ih => exact .cons rfl head ih span span [] []

/-! ## kinds of argument -/

/-- `asList` gives a list exactly of a list literal. -/
theorem asList_eq_list_iff {e : Expr π} {elements : List (Expr π)} :
    e.asList = .list elements ↔ e.IsListOf elements := by
  rw [← listElements?_eq_some_iff, asList]
  cases e.listElements? <;> simp

/-- `asList` gives a list or nothing in particular, so it cannot be mistaken for another kind. -/
theorem asList_cases (e : Expr π) : e.asList = .other ∨ ∃ elements, e.asList = .list elements := by
  rw [asList]
  cases e.listElements? <;> simp

/-- Integers are the integer literals without a suffix. -/
theorem asArgument_eq_int_iff {e : Expr π} {literal : String} :
    e.asArgument = .int literal ↔ e.shape = .constant (.integer literal none) := by
  rw [asArgument.eq_def]
  have hlist := e.asList_cases
  split <;> grind

/-- Truth values are the two constructors of that name, if no module qualifies them. -/
theorem asArgument_eq_bool_iff {e : Expr π} {value : Bool} :
    e.asArgument = .bool value ↔ ∃ name, e.shape = .construct name none ∧
      name.value = .simple (if value then "true" else "false") := by
  rw [asArgument.eq_def]
  have hlist := e.asList_cases
  have hne : QualName.simple "true" ≠ .simple "false" := by decide
  split <;> grind

/-- Strings are string literals, however they are delimited. -/
theorem asArgument_eq_string_iff {e : Expr π} {value : String} :
    e.asArgument = .string value ↔ ∃ delimiter, e.shape = .constant (.string value delimiter) := by
  rw [asArgument.eq_def]
  have hlist := e.asList_cases
  split <;> grind

/-- Characters are character literals. -/
theorem asArgument_eq_char_iff {e : Expr π} {value : Char} :
    e.asArgument = .char value ↔ e.shape = .constant (.char value) := by
  rw [asArgument.eq_def]
  have hlist := e.asList_cases
  split <;> grind

/-- Tags are variants without an argument. -/
theorem asArgument_eq_tag_iff {e : Expr π} {tag : String} :
    e.asArgument = .tag tag ↔ e.shape = .variant tag none := by
  rw [asArgument.eq_def]
  have hlist := e.asList_cases
  split <;> grind

/-- Lists are list literals. A constructor without an argument is looked at as a truth value first;
the empty list is none, so it gets through to `asList`. -/
theorem asArgument_eq_list_iff {e : Expr π} {elements : List (Expr π)} :
    e.asArgument = .list elements ↔ e.IsListOf elements := by
  rw [← asList_eq_list_iff]
  constructor
  · intro h
    rw [asArgument.eq_def] at h
    split at h <;> grind
  · intro h
    have hlist := asList_eq_list_iff.1 h
    cases hlist with
    | nil hname => simpa [asArgument, hname, QualName.simple] using h
    | cons => exact h

end Expr

end DeriveKit
