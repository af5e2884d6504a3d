import DeriveKit.Code.Reduce
import Mathlib.Data.List.Basic
import Mathlib.Order.Bounds.Basic

/-!
# DeriveKit.Proofs.Reduction

What comes of combining expressions from left to right. One more operand stands at the end of what
is evaluated (`Expr.Flattens.thenRun`) or is the last one that the operator is applied to
(`Expr.AppliedLeft.operate`), and its place extends what is covered (`Span.Covers.merge`).
`Expr.exists_reduce` carries such facts over any number of operands.
-/

namespace DeriveKit

variable {π : Type}

/-! ## places -/

namespace Span

/-- The bounds on one side of those spans that are locations. -/
def bounds (side : Span → UInt32) (spans : List Span) : Set Nat :=
  {n | ∃ s ∈ spans, s ≠ generated ∧ (side s).toNat = n}

/-- A span covers several: it goes from the least start of those that are locations to the greatest
stop, and if none is a location it is none either. -/
inductive Covers : List Span → Span → Prop
  | nowhere {spans : List Span} (h : ∀ s ∈ spans, s = generated) : Covers spans generated
  | around {spans : List Span} {cover : Span}
    (hstart : IsLeast (bounds start spans) cover.start.toNat)
    (hstop : IsGreatest (bounds stop spans) cover.stop.toNat) : Covers spans cover

variable {spans : List Span} {cover s : Span} {side : Span → UInt32}

/-- Generated places bound nothing. -/
theorem bounds_of_generated (h : ∀ s ∈ spans, s = generated) : bounds side spans = ∅ :=
  Set.eq_empty_of_forall_notMem fun _ ⟨s, hs, hne, _⟩ => hne (h s hs)

theorem bounds_append_generated : bounds side (spans ++ [generated]) = bounds side spans := by
  ext n
  simp [bounds]

/-- A place that is not generated adds its own bound. -/
theorem bounds_append_of_ne (h : s ≠ generated) :
    bounds side (spans ++ [s]) = insert (side s).toNat (bounds side spans) := by
  ext n
  rw [Set.mem_insert_iff]
  constructor
  · rintro ⟨t, ht, hne, hn⟩
    obtain ht | ht := List.mem_append.1 ht
    · exact .inr ⟨t, ht, hne, hn⟩
    · rw [List.mem_singleton.1 ht] at hn
      exact .inl hn.symm
  · rintro (rfl | ⟨t, ht, hne, hn⟩)
    · exact ⟨s, List.mem_append_right _ (List.mem_singleton_self s), h, rfl⟩
    · exact ⟨t, List.mem_append_left _ ht, hne, hn⟩

theorem toNat_min (m n : UInt32) : (min m n).toNat = min m.toNat n.toNat := by
  show (if m ≤ n then m else n).toNat = _
  split
  case isTrue h => rw [Nat.min_eq_left (UInt32.le_iff_toNat_le.1 h)]
  case isFalse h =>
      rw [UInt32.le_iff_toNat_le] at h
      omega

theorem toNat_max (m n : UInt32) : (max m n).toNat = max m.toNat n.toNat := by
  show (if m ≤ n then n else m).toNat = _
  split
  case isTrue h => rw [Nat.max_eq_right (UInt32.le_iff_toNat_le.1 h)]
  case isFalse h =>
      rw [UInt32.le_iff_toNat_le] at h
      omega

/-- What covers a location is one, also where it begins at the start of the unit. -/
theorem ne_generated_of_bounds (hstart : IsLeast (bounds start spans) cover.start.toNat)
    (hstop : IsGreatest (bounds stop spans) cover.stop.toNat) : cover ≠ generated := by
  rintro rfl
  obtain ⟨s, hs, hne, hzero⟩ := hstart.1
  have hle : s.stop.toNat ≤ 0 := hstop.2 ⟨s, hs, hne, rfl⟩
  refine hne ?_
  obtain ⟨start, stop⟩ := s
  rw [generated, mk.injEq]
  exact ⟨UInt32.toNat_inj.1 hzero, UInt32.toNat_inj.1 (Nat.le_zero.1 hle)⟩

/-- Two places that are not generated merge to the range from the first start to the last stop. -/
theorem merge_of_ne {s t : Span} (hs : s ≠ generated) (ht : t ≠ generated) :
    s.merge t = ⟨min s.start t.start, max s.stop t.stop⟩ := by
  rw [merge, isGenerated_eq_false_iff.2 hs, isGenerated_eq_false_iff.2 ht]
  rfl

/-- Merging with one more span covers that one too. -/
theorem Covers.merge (h : Covers spans cover) (s : Span) :
    Covers (spans ++ [s]) (cover.merge s) := by
  by_cases hs : s = generated
  · subst hs
    rw [merge_generated_right]
    cases h with
    | nowhere h =>
        exact .nowhere fun s hs => (List.mem_append.1 hs).elim (h s) List.mem_singleton.1
    | around hstart hstop =>
        exact .around (by rwa [bounds_append_generated]) (by rwa [bounds_append_generated])
  · cases h with
    | nowhere h =>
        have hbounds {side : Span → UInt32} :
            bounds side (spans ++ [s]) = {(side s).toNat} := by
          rw [bounds_append_of_ne hs, bounds_of_generated h, insert_empty_eq]
        rw [merge_generated_left]
        exact .around (by rw [hbounds]; exact isLeast_singleton)
          (by rw [hbounds]; exact isGreatest_singleton)
    | around hstart hstop =>
        rw [merge_of_ne (ne_generated_of_bounds hstart hstop) hs]
        refine .around ?_ ?_
        · rw [bounds_append_of_ne hs, toNat_min, min_comm]
          exact hstart.insert _
        · rw [bounds_append_of_ne hs, toNat_max, max_comm]
          exact hstop.insert _

/-- A place covers itself. -/
theorem Covers.singleton (s : Span) : Covers [s] s := by
  have hnone : Covers [] generated := .nowhere nofun
  exact hnone.merge s

end Span

/-! ## any number of operands -/

namespace Expr

variable {combine : Expr π → Expr π → Expr π} {operator a : Expr π} {es : List (Expr π)}

/-- **Combining any number of operands.** There is a result if there is an operand at all, and what
holds of a single operand and is kept when one more is taken holds of the result. -/
theorem exists_reduce {motive : List (Expr π) → Expr π → Prop} (single : ∀ e, motive [e] e)
    (step : ∀ es a b, es ≠ [] → motive es a → motive (es ++ [b]) (combine a b)) (e : Expr π)
    (rest : List (Expr π)) :
    ∃ r, reduce combine (e :: rest) = some r ∧ motive (e :: rest) r := by
  suffices hfold : ∀ es a, es ≠ [] → motive es a → motive (es ++ rest) (rest.foldl combine a) from
    ⟨_, rfl, hfold [e] e (List.cons_ne_nil e []) (single e)⟩
  induction rest with
  | nil =>
      intro es a _ h
      rwa [List.append_nil]
  | cons b rest ih =>
      intro es a hes h
      have hnext := ih (es ++ [b]) (combine a b) (List.append_ne_nil_of_left_ne_nil hes _)
        (step es a b hes h)
      rwa [List.append_assoc] at hnext

/-! ### one after the other -/

/-- The operands with `between` between neighbours, if there is anything. -/
def separated (between : Option (Expr π)) (es : List (Expr π)) : List (Expr π) :=
  match between with
  | none => es
  | some c => es.intersperse c

/-- One more operand at the end of a list that has some comes after another separator. -/
theorem separated_append_singleton (between : Option (Expr π)) (hes : es ≠ []) (b : Expr π) :
    separated between (es ++ [b]) = separated between es ++ (between.toList ++ [b]) := by
  cases between with
  | none => rfl
  | some c =>
      show (es ++ [b]).intersperse c = es.intersperse c ++ [c, b]
      induction es with
      | nil => exact absurd rfl hes
      | cons e rest ih =>
          cases rest with
          | nil => rfl
          | cons e' rest =>
              have hrest : (e' :: (rest ++ [b])).intersperse c =
                (e' :: rest).intersperse c ++ [c, b] :=
                ih (List.cons_ne_nil e' rest)
              rw [List.cons_append, List.cons_append, List.intersperse_cons_cons, hrest,
                List.intersperse_cons_cons, List.cons_append, List.cons_append]

/-- Flattening some sequences at the top of an expression shows what is evaluated in order: whatever
a sequence has as its first part, and then whatever it has as its second. -/
inductive Flattens : Expr π → List (Expr π) → Prop
  | whole (e : Expr π) : Flattens e [e]
  | sequence {a b : Expr π} {as bs : List (Expr π)} (h : Flattens a as) (h' : Flattens b bs)
    (span : Span) (attributes : List (Attribute π)) :
    Flattens ⟨.sequence a b, span, attributes⟩ (as ++ bs)

/-- Running one more expression puts it at the end, after what comes between. -/
theorem Flattens.thenRun (h : Flattens a es) (between : Option (Expr π)) (b : Expr π) :
    Flattens (thenRun between a b) (es ++ (between.toList ++ [b])) := by
  cases between with
  | none => exact h.sequence (.whole b) _ []
  | some c => exact h.sequence ((Flattens.whole c).sequence (.whole b) _ []) _ []

/-- The place of a sequence is the places of what it is made of, merged. -/
theorem span_thenRun (between : Option (Expr π)) (a b : Expr π) :
    (thenRun between a b).span = a.span.merge b.span := by
  cases between <;> rfl

/-! ### one into the other -/

/-- Applying an operator to two operands, then to the result and a third, and so on. -/
inductive AppliedLeft (operator : Expr π) : Expr π → List (Expr π) → Prop
  | single (e : Expr π) : AppliedLeft operator e [e]
  | snoc {a : Expr π} {es : List (Expr π)} (h : AppliedLeft operator a es) (b : Expr π)
    (span : Span) : AppliedLeft operator
      ⟨.apply operator [(.positional, a), (.positional, b)], span, []⟩ (es ++ [b])

/-- One more operand on the right is applied last, so it is the outermost one. -/
theorem AppliedLeft.operate (h : AppliedLeft operator a es) (b : Expr π) :
    AppliedLeft operator (operate operator a b) (es ++ [b]) := h.snoc b _

/-! ## reductions -/

/-- **Reductions keep the order of the operands and cover their places.** Without operands there is
no result, and a single operand is the result. Running expressions one after the other evaluates all
of them in order, with what comes between after each but the last; combining them by an operator
applies it from left to right. In both cases the result goes from the least start of the operands
that have a place to the greatest stop, and has no place if none of them has. -/
theorem reductions_keep_order (e : Expr π) (rest : List (Expr π)) :
    (∀ combine : Expr π → Expr π → Expr π, reduce combine [] = none ∧ reduce combine [e] = some e) ∧
    (∀ between : Option (Expr π), ∃ r, reduce (thenRun between) (e :: rest) = some r ∧
      r.Flattens (separated between (e :: rest)) ∧
      Span.Covers ((e :: rest).map (·.span)) r.span) ∧
    ∀ operator : Expr π, ∃ r, reduce (operate operator) (e :: rest) = some r ∧
      AppliedLeft operator r (e :: rest) ∧ Span.Covers ((e :: rest).map (·.span)) r.span := by
  have hcovers {es : List (Expr π)} {a : Expr π} (h : Span.Covers (es.map (·.span)) a.span)
      (b : Expr π) : Span.Covers ((es ++ [b]).map (·.span)) (a.span.merge b.span) := by
    rw [List.map_append]
    exact h.merge b.span
  refine ⟨fun _ => ⟨rfl, rfl⟩, fun between => ?_, fun operator => ?_⟩
  · refine exists_reduce (motive := fun es r =>
      r.Flattens (separated between es) ∧ Span.Covers (es.map (·.span)) r.span) ?_ ?_ e rest
    · intro e
      have hsingle : separated between [e] = [e] := by cases between <;> rfl
      rw [hsingle]
      exact ⟨.whole e, .singleton e.span⟩
    · rintro es a b hes ⟨hflat, hcover⟩
      rw [separated_append_singleton between hes, span_thenRun]
      exact ⟨hflat.thenRun between b, hcovers hcover b⟩
  · refine exists_reduce (motive := fun es r =>
      AppliedLeft operator r es ∧ Span.Covers (es.map (·.span)) r.span) ?_ ?_ e rest
    · exact fun e => ⟨.single e, .singleton e.span⟩
    · rintro es a b - ⟨happlied, hcover⟩
      exact ⟨happlied.operate b, hcovers hcover b⟩

end Expr

end DeriveKit
