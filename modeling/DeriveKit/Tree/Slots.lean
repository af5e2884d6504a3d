/-!
# DeriveKit.Tree.Slots

Slots, arranged as the subtrees of a tree are, and what fills them. The list of what fills some
slots has as many members as there are slots (`length_toList`), and every list of that length fills
them (`exists_toList_eq`). Visiting a filling to collect, to count and to replace is `toList`,
`size` and the filling that has the given list.
-/

namespace DeriveKit

/-- An arrangement of slots. -/
inductive Slots
  | none
  | one
  | both (left right : Slots)

/-- A payload for each slot. -/
inductive Filling (π : Type) : Slots → Type
  | none : Filling π .none
  | one (p : π) : Filling π .one
  | both {left right : Slots} (v : Filling π left) (w : Filling π right) :
      Filling π (.both left right)

/-- How many slots there are. -/
def Slots.size : Slots → Nat
  | .none => 0
  | .one => 1
  | .both left right => left.size + right.size

namespace Filling

variable {π ρ σ : Type} {s : Slots}

/-- The payloads from left to right. -/
def toList : {s : Slots} → Filling π s → List π
  | _, .none => []
  | _, .one p => [p]
  | _, .both v w => v.toList ++ w.toList

/-- Changes each payload. -/
def map (f : π → ρ) : {s : Slots} → Filling π s → Filling ρ s
  | _, .none => .none
  | _, .one p => .one (f p)
  | _, .both v w => .both (v.map f) (w.map f)

/-- Visits the payloads from left to right. -/
def traverse {m : Type → Type} [Monad m] (f : π → m ρ) :
    {s : Slots} → Filling π s → m (Filling ρ s)
  | _, .none => return .none
  | _, .one p => return .one (← f p)
  | _, .both v w => return .both (← v.traverse f) (← w.traverse f)

/-- A filling holds as many things as there are slots. -/
@[simp] theorem length_toList (v : Filling π s) : v.toList.length = s.size := by
  induction v with
  | none => rfl
  | one p => rfl
  | both v w ihv ihw => rw [toList, List.length_append, ihv, ihw, Slots.size]

/-- Every list of the right length fills the slots. -/
theorem exists_toList_eq (l : List π) (h : l.length = s.size) :
    ∃ v : Filling π s, v.toList = l := by
  induction s generalizing l with
  | none => exact ⟨.none, (List.length_eq_zero_iff.1 h).symm⟩
  | one =>
      obtain ⟨p, rfl⟩ := List.length_eq_one_iff.1 h
      exact ⟨.one p, rfl⟩
  | both left right ihl ihr =>
      rw [Slots.size] at h
      obtain ⟨v, hv⟩ := ihl (l.take left.size) (List.length_take_of_le (by omega))
      obtain ⟨w, hw⟩ := ihr (l.drop left.size) (by rw [List.length_drop]; omega)
      exact ⟨.both v w, by rw [toList, hv, hw, List.take_append_drop]⟩

/-- Mapping a filling maps the list of what it holds. -/
@[simp] theorem toList_map (f : π → ρ) (v : Filling π s) : (v.map f).toList = v.toList.map f := by
  induction v with
  | none => rfl
  | one p => rfl
  | both v w ihv ihw => rw [map, toList, ihv, ihw, toList, List.map_append]

/-- Slots can be filled with `()` in one way only. -/
theorem eq_of_unit (v w : Filling Unit s) : v = w := by
  induction v with
  | none => cases w; rfl
  | one => cases w; rfl
  | both v v' ihv ihv' => cases w with | both w w' => rw [ihv w, ihv' w']

/-! ## Collecting, counting and replacing -/

/-- Keeps a payload in front of those met before. -/
def push (p : π) : StateM (List π) Unit := modify (p :: ·)

/-- Counts a payload. -/
def tick (_ : π) : StateM Nat Unit := modify (· + 1)

/-- Takes the first payload of a supply. -/
def next (_ : π) : StateT (List ρ) Option ρ
  | [] => .none
  | p :: rest => some (p, rest)

/-- A visit that only replaces is `map`. -/
theorem traverse_pure (f : π → ρ) (v : Filling π s) :
    Id.run (v.traverse fun p => pure (f p)) = v.map f := by
  induction v with
  | none => rfl
  | one p => rfl
  | both v w ihv ihw => exact congr (congrArg _ ihv) ihw

/-- A visit that collects finds what fills the slots, the last one first. -/
theorem run_traverse_push (v : Filling π s) (l : List π) :
    ((v.traverse push).run l).2 = v.toList.reverse ++ l := by
  induction v generalizing l with
  | none => rfl
  | one p => rfl
  | both v w ihv ihw =>
      simp only [traverse, toList, StateT.run_bind, List.reverse_append, List.append_assoc]
      exact (ihw _).trans (congrArg _ (ihv l))

/-- A visit that counts finds the number of slots. -/
theorem run_traverse_tick (v : Filling π s) (n : Nat) :
    ((v.traverse tick).run n).2 = n + s.size := by
  induction v generalizing n with
  | none => rfl
  | one p => rfl
  | both v w ihv ihw =>
      simp only [traverse, StateT.run_bind, Slots.size, ← Nat.add_assoc]
      exact (ihw _).trans (congrArg (· + _) (ihv n))

/-- A visit that takes the next thing from a list puts a filling's list into its slots. -/
theorem run_traverse_next (u : Filling σ s) (v : Filling ρ s) (rest : List ρ) :
    (u.traverse next).run (v.toList ++ rest) = some (v, rest) := by
  induction u generalizing rest with
  | none => cases v; rfl
  | one => cases v; rfl
  | both u u' ihl ihr =>
      cases v with | both v w =>
      simp only [traverse, toList, List.append_assoc, StateT.run_bind, StateT.run_pure, ihl, ihr,
        Option.bind_eq_bind, Option.bind_some, Option.pure_def]

end Filling

end DeriveKit
