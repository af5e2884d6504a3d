import DeriveKit.Generator.Failure
import Mathlib.Data.List.Forall2

/-!
# DeriveKit.Proofs.Outcome

Steps that may fail, taken in order. An outcome is taken apart into its `check`, which keeps only
the fault, and its `valueOr`, which keeps only the value; a traversal can then be stated as its
checks in order followed by a value that no longer fails (`bind_pure_eq_ok_iff`,
`bind_pure_eq_error_iff`). The steps of a list stop at the first fault:

* `forM_eq_ok_iff`, `mapM_eq_ok_iff` — all of them succeed;
* `forM_eq_error_iff`, `mapM_eq_error_iff` — the fault is that of the first member that has one.
-/

namespace DeriveKit

namespace Outcome

variable {α β : Type}

/-- The outcome without its value. -/
def check (x : Outcome α) : Outcome Unit := x.map fun _ => ()

/-- The value of an outcome, `default` if there is none. -/
def valueOr (default : α) : Outcome α → α
  | .ok a => a
  | .error _ => default

/-- A check succeeds if there is a value. -/
theorem check_eq_ok_iff {x : Outcome α} : check x = .ok () ↔ ∃ a, x = .ok a := by
  cases x with
  | ok a => exact ⟨fun _ => ⟨a, rfl⟩, fun _ => rfl⟩
  | error _ => exact ⟨nofun, nofun⟩

/-- A check has the fault that there is instead of a value. -/
theorem check_eq_error_iff {x : Outcome α} {fault : Fault} :
    check x = .error fault ↔ x = .error fault := by
  cases x with
  | ok _ => exact ⟨nofun, nofun⟩
  | error _ => exact ⟨fun h => by cases h; rfl, fun h => by cases h; rfl⟩

/-- The check of an outcome that gave its value to a step that cannot fail. -/
@[simp] theorem check_map (f : α → β) (x : Outcome α) : check (f <$> x) = check x := by
  cases x <;> rfl

/-- An outcome with a value has it in place of any default. -/
theorem eq_ok_valueOr {x : Outcome α} (default : α) (h : check x = .ok ()) :
    x = .ok (valueOr default x) := by
  obtain ⟨a, rfl⟩ := check_eq_ok_iff.1 h
  rfl

/-- A sequence of two steps succeeds exactly if both do. -/
theorem bind_eq_ok_iff {x : Outcome α} {f : α → Outcome β} {b : β} :
    x >>= f = .ok b ↔ ∃ a, x = .ok a ∧ f a = .ok b := by
  cases x with
  | ok a => exact ⟨fun h => ⟨a, rfl, h⟩, fun ⟨_, rfl, h⟩ => h⟩
  | error fault => exact ⟨nofun, fun ⟨_, h, _⟩ => nomatch h⟩

/-- A sequence of two steps fails if the first does, or if the second does after it. -/
theorem bind_eq_error_iff {x : Outcome α} {f : α → Outcome β} {fault : Fault} :
    x >>= f = .error fault ↔ x = .error fault ∨ ∃ a, x = .ok a ∧ f a = .error fault := by
  constructor
  · intro h
    cases x with
    | ok a => exact .inr ⟨a, rfl, h⟩
    | error _ => cases h; exact .inl rfl
  · rintro (rfl | ⟨a, rfl, h⟩)
    · rfl
    · exact h

/-- Checks followed by a value fail exactly as the checks do. -/
theorem bind_pure_eq_error_iff {x : Outcome Unit} {a : α} {fault : Fault} :
    (do x; return a) = .error fault ↔ x = .error fault := by
  cases x with
  | ok _ => exact ⟨nofun, nofun⟩
  | error _ => exact ⟨fun h => by cases h; rfl, fun h => by cases h; rfl⟩

/-- Checks followed by a value succeed exactly if the checks do, with that value. -/
theorem bind_pure_eq_ok_iff {x : Outcome Unit} {a b : α} :
    (do x; return a) = .ok b ↔ x = .ok () ∧ b = a := by
  cases x with
  | ok _ => exact ⟨fun h => ⟨rfl, by cases h; rfl⟩, fun ⟨_, h⟩ => h ▸ rfl⟩
  | error _ => exact ⟨nofun, fun ⟨h, _⟩ => nomatch h⟩

/-! ## the first fault of a list -/

/-- All checks of a list pass exactly if each does. -/
theorem forM_eq_ok_iff {f : α → Outcome Unit} {l : List α} :
    forM l f = .ok () ↔ ∀ a ∈ l, f a = .ok () := by
  induction l with
  | nil => simp [pure, Except.pure]
  | cons a l ih =>
      rw [List.forM_cons, bind_eq_ok_iff, List.forall_mem_cons, ← ih]
      exact ⟨fun ⟨_, ha, hl⟩ => ⟨ha, hl⟩, fun ⟨ha, hl⟩ => ⟨(), ha, hl⟩⟩

/-- The checks of a list fail with the fault of the first member that has one. -/
theorem forM_eq_error_iff {f : α → Outcome Unit} {l : List α} {fault : Fault} :
    forM l f = .error fault ↔
      ∃ before a after, l = before ++ a :: after ∧ (∀ b ∈ before, f b = .ok ()) ∧
        f a = .error fault := by
  constructor
  · intro h
    induction l with
    | nil => cases h
    | cons a l ih =>
        rw [List.forM_cons] at h
        cases ha : f a with
        | error fault' =>
            rw [ha] at h
            cases h
            exact ⟨[], a, l, rfl, by simp, ha⟩
        | ok _ =>
            rw [ha] at h
            obtain ⟨before, b, after, rfl, hbefore, hb⟩ := ih h
            refine ⟨a :: before, b, after, rfl, ?_, hb⟩
            rw [List.forall_mem_cons]
            exact ⟨ha, hbefore⟩
  · rintro ⟨before, a, after, rfl, hbefore, ha⟩
    rw [List.forM_append, forM_eq_ok_iff.2 hbefore, List.forM_cons, ha]
    rfl

/-! ## steps with a value for each member -/

/-- Steps that all succeed give their values in order. -/
theorem mapM_eq_ok_map {f : α → Outcome β} {g : α → β} {l : List α}
    (h : ∀ a ∈ l, f a = .ok (g a)) : l.mapM f = .ok (l.map g) := by
  induction l with
  | nil => rfl
  | cons a l ih =>
      rw [List.forall_mem_cons] at h
      rw [List.mapM_cons, h.1, ih h.2]
      rfl

/-- The steps of a list succeed exactly if each does, with a value for each member in order. -/
theorem mapM_eq_ok_iff {f : α → Outcome β} {l : List α} {values : List β} :
    l.mapM f = .ok values ↔ List.Forall₂ (fun a b => f a = .ok b) l values := by
  constructor
  · intro h
    induction l generalizing values with
    | nil => cases h; exact .nil
    | cons a l ih =>
        rw [List.mapM_cons] at h
        obtain ⟨b, hb, h⟩ := bind_eq_ok_iff.1 h
        obtain ⟨rest, hrest, h⟩ := bind_eq_ok_iff.1 h
        cases h
        exact .cons hb (ih hrest)
  · intro h
    induction h with
    | nil => rfl
    | cons hb _ ih => rw [List.mapM_cons, hb, ih]; rfl

/-- The steps of a list fail with the fault of the first member that has one. -/
theorem mapM_eq_error_iff {f : α → Outcome β} {l : List α} {fault : Fault} :
    l.mapM f = .error fault ↔
      ∃ before a after, l = before ++ a :: after ∧ (∀ c ∈ before, ∃ b, f c = .ok b) ∧
        f a = .error fault := by
  constructor
  · intro h
    induction l with
    | nil => cases h
    | cons a l ih =>
        rw [List.mapM_cons] at h
        obtain ha | ⟨b, hb, h⟩ := bind_eq_error_iff.1 h
        · exact ⟨[], a, l, rfl, by simp, ha⟩
        · obtain hl | ⟨_, _, h⟩ := bind_eq_error_iff.1 h
          · obtain ⟨before, c, after, rfl, hbefore, hc⟩ := ih hl
            refine ⟨a :: before, c, after, rfl, ?_, hc⟩
            rw [List.forall_mem_cons]
            exact ⟨⟨b, hb⟩, hbefore⟩
          · cases h
  · rintro ⟨before, a, after, rfl, hbefore, ha⟩
    induction before with
    | nil => rw [List.nil_append, List.mapM_cons, ha]; rfl
    | cons c before ih =>
        rw [List.forall_mem_cons] at hbefore
        obtain ⟨⟨b, hb⟩, hbefore⟩ := hbefore
        rw [List.cons_append, List.mapM_cons, hb]
        show (do let rest ← (before ++ a :: after).mapM f; pure (b :: rest)) = .error fault
        rw [ih hbefore]
        rfl

end Outcome

end DeriveKit
