/-!
# DeriveKit.Source.Span

Locations in the unit being expanded. The empty range at the start of the unit doubles as "no
location": generated code carries it until something with a real location replaces it. Merging
treats it as neutral, so that `merge` covers exactly the real locations it is given.
-/

namespace DeriveKit

/-- The bytes from `start` up to `stop` of a source text. -/
structure Span where
  start : UInt32
  stop : UInt32
deriving DecidableEq, Repr, Inhabited

namespace Span

/-- The span of code that was written nowhere. -/
def generated : Span := ⟨0, 0⟩

/-- Whether the span stands for no location at all. -/
def isGenerated (s : Span) : Bool := s.start == 0 && s.stop == 0

/-- The smallest span covering both; a side without a location is ignored. -/
def merge (s t : Span) : Span :=
  if s.isGenerated then t
  else if t.isGenerated then s
  else ⟨min s.start t.start, max s.stop t.stop⟩

/-- The span itself if it is a location, and `fallback` otherwise. -/
def orElse (s fallback : Span) : Span := if s.isGenerated then fallback else s

/-- Two bounds with dots between them, or a marker for generated code. -/
def text (s : Span) : String :=
  if s.isGenerated then "<generated>" else toString s.start.toNat ++ ".." ++ toString s.stop.toNat

/-- Only the empty range at the start counts as no location. -/
theorem isGenerated_iff {s : Span} : s.isGenerated ↔ s = generated := by
  cases s; simp [isGenerated, generated]

theorem isGenerated_eq_false_iff {s : Span} : s.isGenerated = false ↔ s ≠ generated := by
  rw [Bool.eq_false_iff, ne_eq, isGenerated_iff]

@[simp] theorem isGenerated_generated : generated.isGenerated = true := rfl

/-- No location is neutral on the left of `merge`. -/
@[simp] theorem merge_generated_left (s : Span) : generated.merge s = s := rfl

/-- No location is neutral on the right of `merge`. -/
@[simp] theorem merge_generated_right (s : Span) : s.merge generated = s := by
  by_cases h : s.isGenerated
  · simp [merge, isGenerated_iff.1 h]
  · simp [merge, h]

/-- What has no location gets the other one. -/
@[simp] theorem orElse_generated (s : Span) : generated.orElse s = s := rfl

/-- What has a location keeps it. -/
theorem orElse_of_not_generated {s : Span} (h : s.isGenerated = false) (t : Span) :
    s.orElse t = s := by
  simp [orElse, h]

end Span

/-- A value together with the place it was written at. -/
structure Located (α : Type) where
  value : α
  span : Span
deriving DecidableEq, Repr, Inhabited

namespace Located

/-- A value written nowhere. -/
def generated {α : Type} (value : α) : Located α := ⟨value, .generated⟩

/-- Transforms the value and keeps its place. -/
def map {α β : Type} (f : α → β) (l : Located α) : Located β := ⟨f l.value, l.span⟩

end Located

end DeriveKit
