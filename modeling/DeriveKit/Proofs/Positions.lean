import DeriveKit.Code.Trace
import DeriveKit.Proofs.Parts
import Mathlib.Data.List.Basic

/-!
# DeriveKit.Proofs.Positions

Where the expressions, bindings and cases are that a traversal of an expression can meet. A position
is the path of indices that leads to it from part to part (`Event.At`), and paths in the order of
lists put parents before children and siblings in the order of the source. `Event.listing` has every
position that is not strictly inside an expression that is gone round (`Event.mem_listing_iff`),
once and in this order (`Event.pairwise_listing`).
-/

namespace DeriveKit

variable {π : Type}

/-! ## parts -/

/-- What is met directly inside a form of expression, in the order of the source. -/
def ExprShape.events : ExprShape π → List (Event π)
  | .ident _ | .constant _ | .extension _ => []
  | .letIn _ bindings body => bindings.map .binding ++ [.expr body]
  | .function cases => cases.map .case
  | .lambda _ default _ body => default.toList.map .expr ++ [.expr body]
  | .apply callee args => .expr callee :: args.map fun arg => .expr arg.2
  | .matchWith scrutinee cases => .expr scrutinee :: cases.map .case
  | .tuple elements => elements.map .expr
  | .construct _ arg | .variant _ arg => arg.toList.map .expr
  | .record fields base => base.toList.map .expr ++ fields.map fun field => .expr field.2
  | .field e _ | .constraint e _ | .openIn _ e => [.expr e]
  | .ifThenElse condition onTrue onFalse =>
      .expr condition :: .expr onTrue :: onFalse.toList.map .expr
  | .sequence first second => [.expr first, .expr second]

namespace Event

/-- What is met directly inside something that is met: inside a binding its expression, inside a
case its guard and its body. -/
def parts : Event π → List (Event π)
  | expr e => e.shape.events
  | binding b => [expr b.expr]
  | case c => c.parts.map expr

/-- The expressions that are met first: an expression itself, or what is directly inside a binding
or a case. -/
def exprs : Event π → List (Expr π)
  | expr e => [e]
  | binding b => [b.expr]
  | case c => c.parts

@[simp] theorem exprs_expr (e : Expr π) : (expr e).exprs = [e] := rfl

@[simp] theorem exprs_binding (b : Binding π) : (binding b).exprs = [b.expr] := rfl

@[simp] theorem exprs_case (c : Case π) : (case c).exprs = c.parts := rfl

/-- The expressions directly inside a form are those met first in it. -/
theorem flatMap_exprs_events (s : ExprShape π) : s.events.flatMap exprs = s.parts := by
  have hall (es : List (Expr π)) : (es.map expr).flatMap exprs = es := by
    induction es with
    | nil => rfl
    | cons e es ih => simpa using ih
  cases s with
  | ident | constant | extension => rfl
  | letIn recursion bindings body =>
      simp [ExprShape.events, ExprShape.parts, List.flatMap_map, ← List.map_eq_flatMap]
  | function cases => simp [ExprShape.events, ExprShape.parts, List.flatMap_map]
  | lambda label default param body => simp [ExprShape.events, ExprShape.parts, hall]
  | apply callee args =>
      simp [ExprShape.events, ExprShape.parts, List.flatMap_map, ← List.map_eq_flatMap]
  | matchWith scrutinee cases => simp [ExprShape.events, ExprShape.parts, List.flatMap_map]
  | tuple elements => exact hall elements
  | construct name arg | variant name arg => exact hall arg.toList
  | record fields base =>
      simp [ExprShape.events, ExprShape.parts, hall, List.flatMap_map, ← List.map_eq_flatMap]
  | field e _ | constraint e _ | openIn _ e => rfl
  | ifThenElse condition onTrue onFalse => simp [ExprShape.events, ExprShape.parts, hall]
  | sequence first second => rfl

/-! ## induction -/

/-- What a form has for parts is no larger than the form, so `Event.listing` ends. -/
theorem sizeOf_le_of_mem_events {s : ExprShape π} {x : Event π} (h : x ∈ s.events) :
    sizeOf x ≤ sizeOf s := by
  cases x with
  | expr e =>
      have he : e ∈ s.parts := by
        rw [← flatMap_exprs_events]
        exact List.mem_flatMap.2 ⟨expr e, h, List.mem_singleton_self e⟩
      have hsize := ExprShape.sizeOf_lt_of_mem_parts he
      rw [expr.sizeOf_spec]
      omega
  | binding b =>
      cases s with
      | letIn recursion bindings body =>
          have hb : b ∈ bindings := by simpa [ExprShape.events] using h
          have hsize := List.sizeOf_lt_of_mem hb
          rw [binding.sizeOf_spec, ExprShape.letIn.sizeOf_spec]
          omega
      | _ => simp [ExprShape.events] at h
  | case c =>
      cases s with
      | function cases =>
          have hc : c ∈ cases := by simpa [ExprShape.events] using h
          have hsize := List.sizeOf_lt_of_mem hc
          rw [case.sizeOf_spec, ExprShape.function.sizeOf_spec]
          omega
      | matchWith scrutinee cases =>
          have hc : c ∈ cases := by simpa [ExprShape.events] using h
          have hsize := List.sizeOf_lt_of_mem hc
          rw [case.sizeOf_spec, ExprShape.matchWith.sizeOf_spec]
          omega
      | _ => simp [ExprShape.events] at h

/-- A part is smaller than the whole. -/
theorem sizeOf_lt_of_mem_parts {x y : Event π} (h : y ∈ x.parts) : sizeOf y < sizeOf x := by
  cases x with
  | expr e =>
      obtain ⟨shape, span, attributes⟩ := e
      have hsize : sizeOf y ≤ sizeOf shape := sizeOf_le_of_mem_events h
      rw [expr.sizeOf_spec, Expr.mk.sizeOf_spec]
      omega
  | binding b =>
      obtain ⟨pattern, e, attributes, span⟩ := b
      rw [List.mem_singleton.1 h]
      simp only [expr.sizeOf_spec, binding.sizeOf_spec, Binding.mk.sizeOf_spec]
      omega
  | case c =>
      obtain ⟨e, he, rfl⟩ := List.mem_map.1 h
      have hsize := Case.sizeOf_part_lt he
      rw [expr.sizeOf_spec, case.sizeOf_spec]
      omega

/-- What holds of all that is met if it holds of it when it holds of its parts. -/
theorem induction_parts {motive : Event π → Prop}
    (node : ∀ x : Event π, (∀ y ∈ x.parts, motive y) → motive x) (x : Event π) : motive x :=
  node x fun y _ => induction_parts node y
termination_by sizeOf x
decreasing_by exact sizeOf_lt_of_mem_parts ‹_›

/-! ## positions -/

/-- `path` leads from the first event to the second: each of its indices goes on to a part. -/
inductive At : Event π → List Nat → Event π → Prop
  | here (x : Event π) : At x [] x
  | part {x y z : Event π} {i : Nat} {path : List Nat} (hpart : x.parts[i]? = some y)
    (h : At y path z) : At x (i :: path) z

/-- The empty path leads nowhere else (`Event.At`). -/
theorem at_nil_iff {x z : Event π} : x.At [] z ↔ z = x := by
  constructor
  · intro h
    cases h
    rfl
  · rintro rfl
    exact .here z

/-- A path leads to a part first, and from there by the rest of it. -/
theorem at_cons_iff {x z : Event π} {i : Nat} {path : List Nat} :
    x.At (i :: path) z ↔ ∃ y, x.parts[i]? = some y ∧ y.At path z := by
  constructor
  · intro h
    cases h with
    | part hpart h => exact ⟨_, hpart, h⟩
  · rintro ⟨y, hpart, h⟩
    exact .part hpart h

/-- Every expression inside another one is at some position of it. -/
theorem exists_at_of_within {e p : Expr π} (h : p.Within e) :
    ∃ path, (expr e).At path (expr p) := by
  induction h with
  | self => exact ⟨[], .here _⟩
  | part hpart _ ih =>
      obtain ⟨path, hpath⟩ := ih
      rw [← flatMap_exprs_events] at hpart
      obtain ⟨x, hx, hpart⟩ := List.mem_flatMap.1 hpart
      obtain ⟨i, hi⟩ := List.getElem?_of_mem hx
      cases x with
      | expr e =>
          obtain rfl := List.mem_singleton.1 hpart
          exact ⟨i :: path, .part hi hpath⟩
      | binding b =>
          obtain rfl := List.mem_singleton.1 hpart
          exact ⟨i :: 0 :: path, .part hi (.part rfl hpath)⟩
      | case c =>
          obtain ⟨j, hj⟩ := List.getElem?_of_mem (List.mem_map_of_mem (f := expr) hpart)
          exact ⟨i :: j :: path, .part hi (.part hj hpath)⟩

/-- An expression that has a position in something is inside what is met first there. The way to it
may lead through bindings and cases. -/
theorem At.exists_within {x z : Event π} {path : List Nat} {p : Expr π} (h : x.At path z)
    (hz : z = expr p) : ∃ q ∈ x.exprs, p.Within q := by
  induction h with
  | here x =>
      subst hz
      exact ⟨p, List.mem_singleton_self p, .self p⟩
  | @part x y z i path hpart _ ih =>
      obtain ⟨q, hq, hwithin⟩ := ih hz
      have hy := List.mem_of_getElem? hpart
      cases x with
      | expr e =>
          refine ⟨e, List.mem_singleton_self e, .part ?_ hwithin⟩
          rw [← flatMap_exprs_events]
          exact List.mem_flatMap.2 ⟨y, hy, hq⟩
      | binding b =>
          obtain rfl := List.mem_singleton.1 hy
          exact ⟨q, hq, hwithin⟩
      | case c =>
          obtain ⟨e, he, rfl⟩ := List.mem_map.1 hy
          obtain rfl := List.mem_singleton.1 hq
          exact ⟨q, he, hwithin⟩

/-- The expressions in expression positions are those that have a position. -/
theorem within_iff_exists_at {e p : Expr π} : p.Within e ↔ ∃ path, (expr e).At path (expr p) := by
  constructor
  · exact exists_at_of_within
  · rintro ⟨path, h⟩
    obtain ⟨q, hq, hwithin⟩ := h.exists_within rfl
    obtain rfl := List.mem_singleton.1 hq
    exact hwithin

/-! ## what is gone round -/

variable {skip : Expr π → Bool}

/-- Whether the inside of what is met is gone round. -/
def isSkipped (skip : Expr π → Bool) : Event π → Bool
  | expr e => skip e
  | binding _ | case _ => false

/-- Only expressions are gone round. -/
theorem isSkipped_iff {x : Event π} :
    x.isSkipped skip = true ↔ ∃ e, x = expr e ∧ skip e = true := by
  cases x <;> simp [isSkipped]

/-- A position is strictly inside an expression that is gone round. -/
def Hidden (skip : Expr π → Bool) (x : Event π) (path : List Nat) : Prop :=
  ∃ above below e, path = above ++ below ∧ below ≠ [] ∧ x.At above (expr e) ∧ skip e = true

/-- The position where a traversal begins is not hidden, even if it is gone round. -/
theorem not_hidden_nil (x : Event π) : ¬ x.Hidden skip [] := by
  rintro ⟨above, below, e, hpath, hbelow, -, -⟩
  exact hbelow (List.append_eq_nil_iff.1 hpath.symm).2

/-- A position is hidden if it is inside something that is gone round, or hidden further down. -/
theorem hidden_cons_iff {x : Event π} {i : Nat} {path : List Nat} :
    x.Hidden skip (i :: path) ↔
      x.isSkipped skip = true ∨ ∃ y, x.parts[i]? = some y ∧ y.Hidden skip path := by
  constructor
  · rintro ⟨above, below, e, hpath, hbelow, hat, hskip⟩
    cases above with
    | nil => exact .inl (isSkipped_iff.2 ⟨e, (at_nil_iff.1 hat).symm, hskip⟩)
    | cons j above =>
        obtain ⟨rfl, rfl⟩ := List.cons.inj hpath
        obtain ⟨y, hy, hat⟩ := at_cons_iff.1 hat
        exact .inr ⟨y, hy, above, below, e, rfl, hbelow, hat, hskip⟩
  · rintro (hskipped | ⟨y, hy, above, below, e, rfl, hbelow, hat, hskip⟩)
    · obtain ⟨e, rfl, hskip⟩ := isSkipped_iff.1 hskipped
      exact ⟨[], i :: path, e, rfl, List.cons_ne_nil i path, .here _, hskip⟩
    · exact ⟨i :: above, below, e, rfl, hbelow, .part hy hat, hskip⟩

/-- Looks for an expression that is gone round on the way to a position. -/
def hides (skip : Expr π → Bool) : Event π → List Nat → Bool
  | _, [] => false
  | x, i :: path => x.isSkipped skip || (x.parts[i]?).any (·.hides skip path)

/-- Whether a position is hidden can be decided along the path. -/
theorem hides_iff {x : Event π} {path : List Nat} :
    x.hides skip path = true ↔ x.Hidden skip path := by
  induction path generalizing x with
  | nil => simp [hides, not_hidden_nil]
  | cons i path ih =>
      rw [hidden_cons_iff, hides, Bool.or_eq_true, Option.any_eq_true]
      simp only [ih]

instance (skip : Expr π → Bool) (x : Event π) (path : List Nat) :
    Decidable (x.Hidden skip path) :=
  decidable_of_iff _ hides_iff

/-! ## all positions in order -/

/-- The positions in several parts, the parts numbered from `n` on, as positions in the whole. -/
def numbered : Nat → List (List (List Nat × Event π)) → List (List Nat × Event π)
  | _, [] => []
  | n, part :: rest => part.map (fun m => (n :: m.1, m.2)) ++ numbered (n + 1) rest

/-- All positions but those strictly inside an expression that is gone round, each with what is
there. -/
def listing (skip : Expr π → Bool) (x : Event π) : List (List Nat × Event π) :=
  ([], x) :: if x.isSkipped skip then [] else
    numbered 0 (x.parts.attach.map fun y => listing skip y.1)
termination_by sizeOf x
decreasing_by exact sizeOf_lt_of_mem_parts y.2

/-- The listing begins with the position itself; then come those of its parts, unless it is gone
round. -/
theorem listing_eq (skip : Expr π → Bool) (x : Event π) :
    x.listing skip = ([], x) :: if x.isSkipped skip then [] else
      numbered 0 (x.parts.map (listing skip)) := by
  rw [listing, List.attach_map_val]

/-- Without paths, a numbered listing is the listings one after the other. -/
theorem map_snd_numbered (n : Nat) (parts : List (List (List Nat × Event π))) :
    (numbered n parts).map (·.2) = parts.flatMap (List.map (·.2)) := by
  induction parts generalizing n with
  | nil => rfl
  | cons part rest ih => simp [numbered, ih]

/-- A numbered listing has no empty path, since each begins with the number of a part. -/
theorem nil_not_mem_numbered {n : Nat} {parts : List (List (List Nat × Event π))} {z : Event π} :
    ([], z) ∉ numbered n parts := by
  induction parts generalizing n with
  | nil => simp [numbered]
  | cons part rest ih => simp [numbered, ih]

/-- The number at the front of a path says which part it leads into. -/
theorem cons_mem_numbered_iff {n i : Nat} {path : List Nat} {z : Event π}
    {parts : List (List (List Nat × Event π))} :
    (i :: path, z) ∈ numbered n parts ↔
      ∃ j part, i = n + j ∧ parts[j]? = some part ∧ (path, z) ∈ part := by
  induction parts generalizing n with
  | nil => simp [numbered]
  | cons part rest ih =>
      have hmap : (i :: path, z) ∈ part.map (fun m => (n :: m.1, m.2)) ↔
          i = n ∧ (path, z) ∈ part := by
        simp [eq_comm, and_comm]
      rw [numbered, List.mem_append, hmap, ih]
      constructor
      · rintro (⟨rfl, hz⟩ | ⟨j, part', rfl, hpart, hz⟩)
        · exact ⟨0, part, rfl, rfl, hz⟩
        · exact ⟨j + 1, part', by omega, hpart, hz⟩
      · rintro ⟨j, part', rfl, hpart, hz⟩
        cases j with
        | zero =>
            obtain rfl := Option.some.inj hpart
            exact .inl ⟨rfl, hz⟩
        | succ j => exact .inr ⟨j, part', by omega, hpart, hz⟩

/-- **The listing is complete.** It has what has a position, unless that is strictly inside an
expression that is gone round. -/
theorem mem_listing_iff {x z : Event π} {path : List Nat} :
    (path, z) ∈ x.listing skip ↔ x.At path z ∧ ¬ x.Hidden skip path := by
  induction x using induction_parts generalizing path z with
  | node x ih =>
      rw [listing_eq, List.mem_cons]
      cases path with
      | nil =>
          have hrest : ([], z) ∉ if x.isSkipped skip then [] else
              numbered 0 (x.parts.map (listing skip)) := by
            split
            · exact List.not_mem_nil
            · exact nil_not_mem_numbered
          simp [hrest, at_nil_iff, not_hidden_nil]
      | cons i path =>
          cases hskipped : x.isSkipped skip with
          | true => simp [hidden_cons_iff, hskipped]
          | false =>
              have hpart (j : Nat) : (∃ part, (x.parts.map (listing skip))[j]? = some part ∧
                  (path, z) ∈ part) ↔ ∃ y, x.parts[j]? = some y ∧ y.At path z ∧
                  ¬ y.Hidden skip path := by
                simp only [List.getElem?_map, Option.map_eq_some_iff]
                constructor
                · rintro ⟨_, ⟨y, hy, rfl⟩, hz⟩
                  exact ⟨y, hy, (ih y (List.mem_of_getElem? hy)).1 hz⟩
                · rintro ⟨y, hy, hz⟩
                  exact ⟨_, ⟨y, hy, rfl⟩, (ih y (List.mem_of_getElem? hy)).2 hz⟩
              have hnumbered : (i :: path, z) ∈ numbered 0 (x.parts.map (listing skip)) ↔
                  ∃ y, x.parts[i]? = some y ∧ y.At path z ∧ ¬ y.Hidden skip path := by
                rw [cons_mem_numbered_iff, ← hpart]
                simp
              rw [at_cons_iff, hidden_cons_iff, hskipped]
              simp only [Prod.mk.injEq, reduceCtorEq, false_and, false_or,
                Bool.false_eq_true, if_false, hnumbered]
              constructor
              · rintro ⟨y, hy, hat, hhidden⟩
                refine ⟨⟨y, hy, hat⟩, ?_⟩
                rintro ⟨y', hy', hhidden'⟩
                rw [hy] at hy'
                exact hhidden (Option.some.inj hy' ▸ hhidden')
              · rintro ⟨⟨y, hy, hat⟩, hhidden⟩
                exact ⟨y, hy, hat, fun h => hhidden ⟨y, hy, h⟩⟩

/-- A numbered listing is in order if the listings of the parts are. -/
theorem pairwise_numbered (n : Nat) {parts : List (List (List Nat × Event π))}
    (h : ∀ part ∈ parts, part.Pairwise fun m m' => m.1 < m'.1) :
    (numbered n parts).Pairwise fun m m' => m.1 < m'.1 := by
  induction parts generalizing n with
  | nil => exact .nil
  | cons part rest ih =>
      rw [numbered, List.pairwise_append, List.pairwise_map]
      refine ⟨?_, ih (n + 1) fun p hp => h p (List.mem_cons_of_mem _ hp), ?_⟩
      · refine (h part List.mem_cons_self).imp fun hlt => ?_
        exact List.cons_lt_cons_iff.2 (.inr ⟨rfl, hlt⟩)
      · intro m hm m' hm'
        obtain ⟨⟨path, z⟩, -, rfl⟩ := List.mem_map.1 hm
        obtain ⟨path', z'⟩ := m'
        cases path' with
        | nil => exact absurd hm' nil_not_mem_numbered
        | cons i path' =>
            obtain ⟨j, -, rfl, -⟩ := cons_mem_numbered_iff.1 hm'
            exact List.cons_lt_cons_iff.2 (.inl (by omega))

/-- **The listing is in order.** Parents come before children, and siblings in the order of the
source; nothing comes twice. -/
theorem pairwise_listing (skip : Expr π → Bool) (x : Event π) :
    (x.listing skip).Pairwise fun m m' => m.1 < m'.1 := by
  induction x using induction_parts with
  | node x ih =>
      rw [listing_eq, List.pairwise_cons]
      split
      · exact ⟨fun _ h => absurd h List.not_mem_nil, .nil⟩
      · refine ⟨fun m hm => ?_, pairwise_numbered 0 fun part hpart => ?_⟩
        · obtain ⟨path, z⟩ := m
          cases path with
          | nil => exact absurd hm nil_not_mem_numbered
          | cons i path => exact List.nil_lt_cons i path
        · obtain ⟨y, hy, rfl⟩ := List.mem_map.1 hpart
          exact ih y hy

/-- Going round some expressions leaves out what is strictly inside them, and nothing else. -/
theorem listing_eq_filter (skip : Expr π → Bool) (x : Event π) :
    x.listing skip = (x.listing fun _ => false).filter fun m => ¬ x.Hidden skip m.1 := by
  have hnodup {l : List (List Nat × Event π)} (h : l.Pairwise fun m m' => m.1 < m'.1) :
      l.Nodup := by
    refine h.imp fun {m m'} hlt => ?_
    rintro rfl
    exact List.lt_irrefl m.1 hlt
  have hpairwise := pairwise_listing skip x
  have hfilter := (pairwise_listing (fun _ => false) x).filter fun m => ¬ x.Hidden skip m.1
  have hfull (path : List Nat) : ¬ x.Hidden (fun _ => false) path := by simp [Hidden]
  refine List.Perm.eq_of_pairwise (fun m m' _ _ h h' => absurd h' (List.lt_asymm h)) hpairwise
    hfilter ((List.perm_ext_iff_of_nodup (hnodup hpairwise) (hnodup hfilter)).2 ?_)
  rintro ⟨path, z⟩
  simp [mem_listing_iff, hfull]

end Event

end DeriveKit
