import DeriveKit.Proofs.Mentioned
import Mathlib.Data.List.Dedup

/-!
# DeriveKit.Proofs.LastRegistered

A registry is a map in which the last registration under a name counts, and nothing else of the
history of registrations can be seen: not in what is found, listed, counted or shown, and not in an
expansion (`Registry.last_registration_counts`).

The table is in any order after each registration (`Registry.After`), so `lookup`, `names`, `size`
and `text` are compared for any two tables that come of histories with the same last generators. An
expansion uses only `lookup` and `names` (`Registry.expand_congr`).
-/

namespace DeriveKit

/-- Histories with the same last generators have the same names. -/
theorem exists_named_congr {history history' : List Generator} {name : String}
    (h : lastNamed history name = lastNamed history' name) :
    (∃ g ∈ history, g.name = name) ↔ ∃ g ∈ history', g.name = name := by
  rw [← not_iff_not, ← lastNamed_eq_none_iff, ← lastNamed_eq_none_iff, h]

/-- Outcomes that are alike when nothing is overlooked are the same. -/
theorem Outcome.alike_id_iff {α : Type} {x y : Outcome α} : Alike id x y ↔ x = y := by
  cases x with
  | ok a => exact alike_ok_iff.trans eq_comm
  | error fault =>
      rw [alike_error_iff]
      exact ⟨fun ⟨_, hy, hview⟩ => hy ▸ congrArg Except.error hview, fun h => ⟨fault, h.symm, rfl⟩⟩

namespace Registry

variable {history history' : List Generator} {r r' : Registry}

/-- What is found after a list of registrations is the last generator of that name. -/
theorem lookup_ofList (history : List Generator) (name : String) :
    (ofList history).lookup name = lastNamed history name :=
  (after_ofList history).lookup_eq name

/-- One more registration goes on with the history, and gives back the generator that is
replaced. -/
theorem After.register (h : After history r) (g : Generator) :
    After (history ++ [g]) (r.register g).1 ∧ (r.register g).2 = lastNamed history g.name :=
  ⟨h.registration g (.refl _), h.lookup_eq g.name⟩

/-- A registry has as many generators as there are different names. -/
theorem After.size_eq (h : After history r) : r.size = (history.map (·.name)).dedup.length := by
  have hnodup : r.names.Nodup := r.names_pairwise.imp ne_of_lt
  have hperm : r.names.Perm (history.map (·.name)).dedup :=
    (List.perm_ext_iff_of_nodup hnodup (List.nodup_dedup _)).2 fun name => by
      rw [h.mem_names_iff, List.mem_dedup, List.mem_map]
  rw [size_eq_length_names, hperm.length_eq]

/-- A registry is empty if it has no names. -/
theorem isEmpty_iff_size_eq_zero {r : Registry} : r.isEmpty = true ↔ r.size = 0 :=
  List.isEmpty_iff_length_eq_zero

section

variable (hnames : r.names = r'.names)

include hnames

/-- Registries with the same last generators have the same size. -/
theorem size_congr : r.size = r'.size := by
  rw [size_eq_length_names, size_eq_length_names, hnames]

/-- Registries with the same last generators are shown alike. -/
theorem text_congr : r.text = r'.text := by
  unfold text
  rw [hnames]

/-- Registries of the same names in which the same is found expand all units to the same, and fail
alike in all. -/
theorem expand_congr (hlookup : ∀ name, r.lookup name = r'.lookup name) (path : ModulePath)
    (u : SourceUnit Payload) : u.expand r path = u.expand r' path := by
  refine Outcome.alike_id_iff.1 (SourceUnit.expand_congr (fun name span => ?_) fun name _ => ?_)
  · rw [unknown, unknown, hnames]
  · exact hlookup name

end

/-- Tables with the same last generators have the same names, whatever their order. -/
theorem After.names_eq (h : After history r) (h' : After history' r')
    (hlast : ∀ name, lastNamed history name = lastNamed history' name) : r.names = r'.names :=
  names_congr fun name => by rw [h.mem_names_iff, h'.mem_names_iff, exists_named_congr (hlast name)]

/-- **The last registration counts.** A registry is a table in no particular order, to which
generators were registered one after the other. In it the last generator of each name is found, each
name is listed once and in order, and a further registration gives back the generator that it
replaces. Tables of histories with the same last generators cannot be told apart: not by what is
found, listed, counted or shown, and not by any expansion. -/
theorem last_registration_counts (history : List Generator) :
    After history (ofList history) ∧
    ∀ r, After history r →
      (∀ name, r.lookup name = lastNamed history name) ∧
      (∀ name, r.contains name = true ↔ ∃ g, r.lookup name = some g) ∧
      (∀ g, After (history ++ [g]) (r.register g).1 ∧
        (r.register g).2 = lastNamed history g.name) ∧
      r.size = (history.map (·.name)).dedup.length ∧
      (r.isEmpty = true ↔ r.size = 0) ∧
      r.names.Pairwise (· < ·) ∧
      (∀ name, name ∈ r.names ↔ ∃ g ∈ history, g.name = name) ∧
      ∀ history' r', After history' r' →
        (∀ name, lastNamed history name = lastNamed history' name) →
        (∀ name, r.lookup name = r'.lookup name) ∧ r.names = r'.names ∧ r.size = r'.size ∧
        r.text = r'.text ∧
        ∀ (u : SourceUnit Payload) (path : ModulePath), u.expand r path = u.expand r' path := by
  refine ⟨after_ofList history, fun r h => ⟨h.lookup_eq, fun name => Option.isSome_iff_exists,
    h.register, h.size_eq, isEmpty_iff_size_eq_zero, r.names_pairwise, fun name => h.mem_names_iff,
    fun history' r' h' hlast => ?_⟩⟩
  have hlookup : ∀ name, r.lookup name = r'.lookup name := fun name => by
    rw [h.lookup_eq, h'.lookup_eq, hlast]
  have hnames : r.names = r'.names := h.names_eq h' hlast
  exact ⟨hlookup, hnames, size_congr hnames, text_congr hnames,
    fun u path => expand_congr hnames hlookup path u⟩

/-- A history in which a generator is replaced. -/
def replacedHistory : List Generator :=
  [⟨"b", none, none, none, none, none⟩, .echo "b", .echo "a"]

/-- The table of that history, in another order. -/
def shuffled : Registry := ⟨[.echo "b", .echo "a"], by decide⟩

/-- A generator that was replaced does not show, nor does the order of the others. -/
theorem last_registration_counts_replacedHistory :
    (∀ name, lastNamed replacedHistory name = lastNamed [.echo "a", .echo "b"] name) ∧
    After replacedHistory shuffled ∧ shuffled.size = 2 ∧ shuffled.names = ["a", "b"] ∧
    (∀ name, name ∈ shuffled.names ↔ ∃ g ∈ replacedHistory, g.name = name) ∧
    shuffled.names = (ofList [.echo "a", .echo "b"]).names ∧
    ∀ (u : SourceUnit Payload) (path : ModulePath),
      u.expand shuffled path = u.expand (ofList [.echo "a", .echo "b"]) path := by
  have hlast : ∀ name, lastNamed replacedHistory name = lastNamed [.echo "a", .echo "b"] name := by
    intro name
    by_cases hb : "b" = name
    · subst hb
      rfl
    · by_cases ha : "a" = name
      · subst ha
        rfl
      · simp [lastNamed, replacedHistory, Generator.echo, ha, hb]
  have hafter : After replacedHistory shuffled :=
    .registration (after_ofList [⟨"b", none, none, none, none, none⟩, .echo "b"]) (.echo "a")
      (.swap _ _ _)
  obtain ⟨-, -, -, hsize, -, -, hnames, hsame⟩ :=
    (last_registration_counts replacedHistory).2 _ hafter
  obtain ⟨-, hlisted, -, -, hexpand⟩ := hsame _ _ (after_ofList _) hlast
  refine ⟨hlast, hafter, ?_, ?_, hnames, hlisted, hexpand⟩
  · rw [hsize]
    decide
  · simp [shuffled, names, Generator.echo, List.mergeSort]

end Registry

end DeriveKit
