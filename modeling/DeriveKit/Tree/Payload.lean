import DeriveKit.Tree.Regular

/-!
# DeriveKit.Tree.Payload

The payloads of attributes and extension nodes: syntax whose own attributes hold payloads again.
A payload is kept as the outline of its first level, which has a slot for each payload on the next
one, together with what fills the slots. So recursion over payloads is recursion over this one
type. `Payload.ofShape` and `Payload.shape` pass between it and the syntax itself and are inverse
to each other; `fold_ofShape` and `induction` say that a payload may be thought of as a tree whose
children are the payloads of its first level.
-/

namespace DeriveKit

namespace PayloadShape

variable {π ρ σ : Type}

/-- The same syntax with `f p` in place of each payload `p`. -/
def map (f : π → ρ) (s : PayloadShape π) : PayloadShape ρ :=
  Id.run (s.traverse fun p => pure (f p))

/-- The same syntax with nothing in place of its payloads. -/
def outline (s : PayloadShape π) : PayloadShape Unit :=
  s.map fun _ => ()

/-- The payloads of the first level, from left to right. -/
def payloads (s : PayloadShape π) : List π :=
  ((s.traverse Filling.push).run []).2.reverse

/-- How many payloads the first level has. -/
def slots (s : PayloadShape π) : Nat :=
  ((s.traverse Filling.tick).run 0).2

/-- Puts `parts` in the slots from left to right; `none` if there are too few. -/
def fill? (s : PayloadShape σ) (parts : List ρ) : Option (PayloadShape ρ) :=
  ((s.traverse Filling.next).run parts).map (·.1)

/-- One level of payload is made by filling slots, and what it holds is what fills them. -/
theorem exists_make (s : PayloadShape π) :
    ∃ (a : Slots) (v : Filling π a) (make : {ρ : Type} → Filling ρ a → PayloadShape ρ),
      make v = s ∧
      (∀ {σ : Type} (w : Filling σ a), (make w).payloads = w.toList) ∧
      (∀ {σ : Type} (w : Filling σ a), (make w).slots = a.size) ∧
      (∀ {σ ρ : Type} (u : Filling σ a) (w : Filling ρ a),
        (make u).fill? w.toList = some (make w)) ∧
      ∀ {σ ρ : Type} (f : σ → ρ) (w : Filling σ a), (make w).map f = make (w.map f) := by
  obtain ⟨a, v, make, rfl, h⟩ := s.regular
  dsimp only at h
  refine ⟨a, v, make, rfl, fun w => ?_, fun w => ?_, fun u w => ?_, fun f w => ?_⟩
  · have run_map : ((make <$> w.traverse Filling.push).run []).2 =
        ((w.traverse Filling.push).run []).2 := rfl
    rw [payloads, h, run_map, Filling.run_traverse_push, List.append_nil, List.reverse_reverse]
  · have run_map : ((make <$> w.traverse Filling.tick).run 0).2 =
        ((w.traverse Filling.tick).run 0).2 := rfl
    rw [slots, h, run_map, Filling.run_traverse_tick, Nat.zero_add]
  · have run_next := Filling.run_traverse_next u w []
    rw [List.append_nil] at run_next
    rw [fill?, h, StateT.run_map, run_next]
    rfl
  · rw [map, h, ← Filling.traverse_pure]
    rfl

/-- There is a slot in the outline for each payload. -/
@[simp] theorem slots_outline (s : PayloadShape π) : s.outline.slots = s.payloads.length := by
  obtain ⟨a, v, make, rfl, payloads_make, slots_make, -, map_make⟩ := s.exists_make
  rw [outline, map_make, slots_make, payloads_make, Filling.length_toList]

/-- An outline together with its payloads is the whole. -/
@[simp] theorem fill?_outline (s : PayloadShape π) : s.outline.fill? s.payloads = some s := by
  obtain ⟨a, v, make, rfl, payloads_make, -, fill?_make, map_make⟩ := s.exists_make
  rw [outline, map_make, payloads_make, fill?_make]

/-- An outline can be filled with as many payloads as it has slots, and then has them. -/
theorem exists_fill?_eq (o : PayloadShape Unit) (parts : List π) (h : parts.length = o.slots) :
    ∃ s : PayloadShape π, o.fill? parts = some s ∧ s.outline = o ∧ s.payloads = parts := by
  obtain ⟨a, u, make, rfl, payloads_make, slots_make, fill?_make, map_make⟩ := o.exists_make
  obtain ⟨v, rfl⟩ := Filling.exists_toList_eq parts (h.trans (slots_make u))
  exact ⟨make v, fill?_make u v, by rw [outline, map_make, Filling.eq_of_unit (v.map _) u],
    payloads_make v⟩

/-- Changing the payloads and filling with the changed payloads is the same. -/
@[simp] theorem fill?_outline_map (f : π → ρ) (s : PayloadShape π) :
    s.outline.fill? (s.payloads.map f) = some (s.map f) := by
  obtain ⟨a, v, make, rfl, payloads_make, -, fill?_make, map_make⟩ := s.exists_make
  rw [outline, map_make, payloads_make, ← Filling.toList_map, fill?_make, map_make]

end PayloadShape

/-- What an attribute or an extension node holds: an outline and what fills its slots. -/
inductive Payload
  | mk (outline : PayloadShape Unit) (parts : Fin outline.slots → Payload)

namespace Payload

/-- The payload of an attribute with nothing after its name. -/
def empty : Payload := mk (.structure []) fun i => i.elim0

/-- The payload with the given first level. -/
def ofShape (s : PayloadShape Payload) : Payload :=
  let parts := s.payloads
  mk s.outline fun i => parts.getD i empty

/-- The first level of a payload. There is a part for each slot, so the default is never used. -/
def shape : Payload → PayloadShape Payload
  | mk outline parts => (outline.fill? (List.ofFn parts)).getD (.structure [])

/-- The result of a payload, from the results of the payloads inside it. -/
def fold {α : Type} (alg : PayloadShape α → α) : Payload → α
  | mk outline parts =>
      alg ((outline.fill? (List.ofFn fun i => fold alg (parts i))).getD (.structure []))

theorem ofFn_getD (s : PayloadShape Payload) {α : Type} (f : Payload → α) :
    (List.ofFn fun i : Fin s.outline.slots => f (s.payloads.getD i empty)) = s.payloads.map f := by
  refine List.ext_getElem (by simp) fun i h _ => ?_
  rw [List.length_ofFn, PayloadShape.slots_outline] at h
  rw [List.getElem_ofFn, List.getElem_map, List.getD_eq_getElem?_getD, List.getElem?_eq_getElem h,
    Option.getD_some]

/-- The syntax of a payload made from syntax is that syntax. -/
@[simp] theorem shape_ofShape (s : PayloadShape Payload) : (ofShape s).shape = s := by
  have h := ofFn_getD s id
  rw [List.map_id] at h
  rw [ofShape, shape]
  exact (congrArg (fun l => (s.outline.fill? l).getD _) h).trans (by simp)

/-- A payload is made of its own syntax. -/
@[simp] theorem ofShape_shape (p : Payload) : ofShape p.shape = p := by
  obtain ⟨o, parts⟩ := p
  obtain ⟨s, fill?_eq, rfl, payloads_eq⟩ := o.exists_fill?_eq (List.ofFn parts) (by simp)
  rw [shape, fill?_eq, Option.getD_some, ofShape]
  congr 1
  funext i
  rw [List.getD_eq_getElem?_getD, payloads_eq, List.getElem?_ofFn, dif_pos i.isLt,
    Option.getD_some]

/-- Folding a payload folds the payloads of its first level before. -/
theorem fold_ofShape {α : Type} (alg : PayloadShape α → α) (s : PayloadShape Payload) :
    (ofShape s).fold alg = alg (s.map (fold alg)) := by
  rw [ofShape, fold, ofFn_getD s (fold alg), PayloadShape.fill?_outline_map, Option.getD_some]

/-- What holds of a payload if it holds of the payloads of its first level holds of all. -/
theorem induction {motive : Payload → Prop}
    (h : ∀ s : PayloadShape Payload, (∀ p ∈ s.payloads, motive p) → motive (ofShape s))
    (p : Payload) : motive p := by
  induction p with
  | mk o parts ih =>
      obtain ⟨s, fill?_eq, -, payloads_eq⟩ := o.exists_fill?_eq (List.ofFn parts) (by simp)
      have shape_eq : (mk o parts).shape = s := by rw [shape, fill?_eq, Option.getD_some]
      rw [← ofShape_shape (mk o parts), shape_eq]
      refine h s fun p hp => ?_
      rw [payloads_eq, List.mem_ofFn] at hp
      obtain ⟨i, rfl⟩ := hp
      exact ih i

/-- A payload made of items of a structure. -/
def ofStructure (items : List (StructureItem Payload)) : Payload := ofShape (.structure items)

/-- A payload made of items of a signature. -/
def ofSignature (items : List (SignatureItem Payload)) : Payload := ofShape (.signature items)

/-- A payload that is a type. -/
def ofType (t : TypeExpr Payload) : Payload := ofShape (.type t)

/-- A payload that is a pattern, perhaps with a guard. -/
def ofPattern (p : Pattern Payload) (guard : Option (Expr Payload)) : Payload :=
  ofShape (.pattern p guard)

/-- A payload that is one expression. -/
def ofExpr (e : Expr Payload) : Payload := ofStructure [.eval e e.span]

/-- The expression that the payload is, if it is one and nothing more. -/
def expr? (p : Payload) : Option (Expr Payload) :=
  match p.shape with
  | .structure [item] => item.bareEval?
  | _ => none

/-- The type that the payload is, if it is one. -/
def type? (p : Payload) : Option (TypeExpr Payload) :=
  match p.shape with
  | .type t => some t
  | _ => none

/-- Whether nothing follows the name of the attribute. -/
def isEmpty (p : Payload) : Bool :=
  match p.shape with
  | .structure [] => true
  | _ => false

end Payload

/-- An attribute with an expression after its name, placed where the expression is. -/
def Attribute.withExpr (name : String) (expr : Expr Payload) : Attribute Payload :=
  .named name (.ofExpr expr) expr.span

/-- An attribute with nothing after its name. -/
def Attribute.flag (name : String) (span : Span) : Attribute Payload :=
  .named name .empty span

end DeriveKit
