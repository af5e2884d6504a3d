import DeriveKit.Generator.Basic
import DeriveKit.Text.Visible

/-!
# DeriveKit.Generator.Registry

The generators that annotations can name. A registry is a table without an order of its own: it has
at most one generator of each name, and `register` puts a generator in the place of an earlier one
of the same name. The order shows nowhere but in `names`, which sorts them.
-/

namespace DeriveKit

/-- Generators, no two of the same name. Nothing is said of the order in which they are kept. -/
structure Registry where
  generators : List Generator
  distinct : (generators.map (·.name)).Nodup

namespace Registry

/-- The registry of no generators. -/
def empty : Registry := ⟨[], List.nodup_nil⟩

/-- Puts a generator among others, instead of one of the same name. -/
def insert (g : Generator) (l : List Generator) : List Generator :=
  g :: l.filter fun h => h.name != g.name

/-- Where names are distinct, they stay so. -/
theorem distinct_insert (g : Generator) {l : List Generator} (h : (l.map (·.name)).Nodup) :
    ((insert g l).map (·.name)).Nodup := by
  rw [insert, List.map_cons, List.nodup_cons]
  exact ⟨by simp, h.sublist (List.filter_sublist.map _)⟩

/-- The generator called `name`. -/
def lookup (r : Registry) (name : String) : Option Generator :=
  r.generators.find? fun g => g.name == name

/-- Registers a generator: the registry with it, and the one whose place it takes. -/
def register (r : Registry) (g : Generator) : Registry × Option Generator :=
  (⟨insert g r.generators, distinct_insert g r.distinct⟩, r.lookup g.name)

/-- A registry of generators registered one after the other. -/
def ofList (generators : List Generator) : Registry :=
  generators.foldl (fun r g => (r.register g).1) empty

/-- Whether a generator of that name is registered. -/
def contains (r : Registry) (name : String) : Bool := (r.lookup name).isSome

/-- The names of all generators in order. -/
def names (r : Registry) : List String := (r.generators.map (·.name)).mergeSort

/-- The number of generators. -/
def size (r : Registry) : Nat := r.generators.length

/-- Whether there are no generators. -/
def isEmpty (r : Registry) : Bool := r.generators.isEmpty

/-- The registry as it is shown to a developer. -/
def text (r : Registry) : String :=
  "Registry \x7b generators: [" ++ joinWith ", " (r.names.map visible) ++ "] \x7d"

end Registry

end DeriveKit
