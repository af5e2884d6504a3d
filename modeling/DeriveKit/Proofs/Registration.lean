import DeriveKit.Generator.Registry
import Mathlib.Data.List.Induction
import Mathlib.Data.List.Sort
import Mathlib.Data.String.Basic

/-!
# DeriveKit.Proofs.Registration

Registries as tables. What `Registry.lookup` finds is what the table has
(`Registry.lookup_eq_some_iff`), so it is the same in any order of the table
(`Registry.lookup_eq_of_perm`), and a registration changes it under one name
(`Registry.lookup_register`). `Registry.names` is in order and has each name once
(`Registry.names_pairwise`), so registries that have the same names list them alike
(`Registry.names_congr`).

`Registry.After` goes through a history of registrations, with the table in any order after each
of them; the last generator of a name is the one found (`Registry.After.lookup_eq`).
-/

namespace DeriveKit

/-! ## the last of a name -/

/-- The last generator of a history with that name. -/
def lastNamed (history : List Generator) (name : String) : Option Generator :=
  (history.filter fun g => g.name == name).getLast?

/-- A newer generator takes the place of the older ones of its name. -/
theorem lastNamed_concat (history : List Generator) (g : Generator) (name : String) :
    lastNamed (history ++ [g]) name =
      if g.name = name then some g else lastNamed history name := by
  by_cases hname : g.name = name <;> simp [lastNamed, List.filter_append, hname]

/-- A history has no last generator of a name if none of its generators has the name. -/
theorem lastNamed_eq_none_iff {history : List Generator} {name : String} :
    lastNamed history name = none ↔ ¬ ∃ g ∈ history, g.name = name := by
  simp [lastNamed]

namespace Registry

variable {r r' : Registry} {g : Generator} {name : String}

/-! ## what is found -/

/-- A name finds the generator of that name which the table has. There is no other one, so the order
of the table does not matter. -/
theorem lookup_eq_some_iff : r.lookup name = some g ↔ g ∈ r.generators ∧ g.name = name := by
  constructor
  · intro h
    exact ⟨List.mem_of_find?_eq_some h, by simpa using List.find?_some h⟩
  · rintro ⟨hg, rfl⟩
    obtain ⟨h, hfound⟩ : ∃ h, r.lookup g.name = some h := by
      rw [← Option.isSome_iff_exists, lookup, List.find?_isSome]
      exact ⟨g, hg, by simp⟩
    have hname : h.name = g.name := by simpa using List.find?_some hfound
    rw [hfound, List.inj_on_of_nodup_map r.distinct (List.mem_of_find?_eq_some hfound) hg hname]

/-- The order of the table does not show in what is found. -/
theorem lookup_eq_of_perm (h : r.generators.Perm r'.generators) (name : String) :
    r.lookup name = r'.lookup name := by
  refine Option.ext fun g => ?_
  rw [lookup_eq_some_iff, lookup_eq_some_iff, h.mem_iff]

/-- What stands in the table after a registration: the generator, and those of other names. -/
theorem mem_register {h : Generator} :
    h ∈ (r.register g).1.generators ↔ h = g ∨ h ∈ r.generators ∧ h.name ≠ g.name := by
  show h ∈ insert g r.generators ↔ _
  rw [insert, List.mem_cons, List.mem_filter, bne_iff_ne]

/-- A registration changes what is found under the name of the generator, and under no other. -/
theorem lookup_register (r : Registry) (g : Generator) (name : String) :
    (r.register g).1.lookup name = if g.name = name then some g else r.lookup name := by
  refine Option.ext fun h => ?_
  rw [lookup_eq_some_iff, mem_register]
  by_cases hname : g.name = name
  · rw [if_pos hname, Option.some.injEq]
    constructor
    · rintro ⟨rfl | ⟨-, hne⟩, hh⟩
      · rfl
      · exact absurd (hh.trans hname.symm) hne
    · rintro rfl
      exact ⟨.inl rfl, hname⟩
  · rw [if_neg hname, lookup_eq_some_iff]
    constructor
    · rintro ⟨rfl | ⟨hh, -⟩, hn⟩
      · exact absurd hn hname
      · exact ⟨hh, hn⟩
    · rintro ⟨hh, rfl⟩
      exact ⟨.inr ⟨hh, fun heq => hname heq.symm⟩, rfl⟩

/-! ## names -/

/-- There is a generator to be found by each of the names of a registry. -/
theorem mem_names_iff : name ∈ r.names ↔ ∃ g, r.lookup name = some g := by
  simp [names, lookup_eq_some_iff]

/-- Nothing is found under exactly the names that `Registry.names` does not list. -/
theorem lookup_eq_none_iff : r.lookup name = none ↔ name ∉ r.names := by
  rw [mem_names_iff, ← Option.isSome_iff_exists]
  simp

/-- The names of a registry are in order, and none is there twice. -/
theorem names_pairwise (r : Registry) : r.names.Pairwise (· < ·) := by
  have hperm : r.names.Perm (r.generators.map (·.name)) := List.mergeSort_perm _ _
  have hsorted : r.names.Pairwise (· ≤ ·) := List.pairwise_mergeSort' (· ≤ ·) _
  have hnodup : r.names.Nodup := hperm.nodup_iff.2 r.distinct
  exact (hsorted.and hnodup).imp fun h => lt_of_le_of_ne h.1 h.2

/-- Registries of the same names list them alike. -/
theorem names_congr (h : ∀ name, name ∈ r.names ↔ name ∈ r'.names) : r.names = r'.names :=
  r.names_pairwise.eq_of_mem_iff r'.names_pairwise h

/-- There are as many generators as names. -/
theorem size_eq_length_names (r : Registry) : r.size = r.names.length := by
  rw [names, List.length_mergeSort, List.length_map, size]

/-! ## histories -/

/-- A registry after a history of registrations, the last of which is the newest. After each of them
the generators may stand in any order. -/
inductive After : List Generator → Registry → Prop
  | nothing {r : Registry} (h : r.generators = []) : After [] r
  | registration {history : List Generator} {r next : Registry} (before : After history r)
    (g : Generator) (h : next.generators.Perm (r.register g).1.generators) :
    After (history ++ [g]) next

variable {history : List Generator}

/-- The generator found by a name is the last one registered under it. -/
theorem After.lookup_eq (h : After history r) (name : String) :
    r.lookup name = lastNamed history name := by
  induction h with
  | nothing h => rw [lookup, h]; rfl
  | registration before g h ih => rw [lookup_eq_of_perm h, lookup_register, ih, lastNamed_concat]

/-- The names of a registry are those that generators were registered under. -/
theorem After.mem_names_iff (h : After history r) :
    name ∈ r.names ↔ ∃ g ∈ history, g.name = name := by
  rw [← not_iff_not, ← lookup_eq_none_iff, h.lookup_eq, lastNamed_eq_none_iff]

/-- One more registration. -/
theorem ofList_concat (history : List Generator) (g : Generator) :
    ofList (history ++ [g]) = ((ofList history).register g).1 := by
  rw [ofList, List.foldl_append]
  rfl

/-- A list of generators is a history. -/
theorem after_ofList (history : List Generator) : After history (ofList history) := by
  induction history using List.reverseRecOn with
  | nil => exact .nothing rfl
  | append_singleton history g ih =>
      rw [ofList_concat]
      exact .registration ih g (.refl _)

/-- A registry of no generators has no names. -/
@[simp] theorem names_empty : empty.names = [] := List.mergeSort_nil

/-- A registry of one generator has its name. -/
@[simp] theorem names_ofList_singleton (g : Generator) : (ofList [g]).names = [g.name] :=
  List.mergeSort_singleton g.name

end Registry

end DeriveKit
