import DeriveKit.Proofs.Expansion

/-!
# DeriveKit.Proofs.FirstFault

How an expansion fails: with the fault of the first point, in the order of a walk, that has one
(`SourceUnit.expand_eq_error_iff`). `Point.Fails` says when a point by itself has a fault, and
`Point.FirstFails` which fault of a list of points comes first. What comes after that point does not
matter, so two units that are alike up to it fail alike (`SourceUnit.first_failure_decides`).
-/

namespace DeriveKit

/-- A point fails by itself. An annotated group that is not recursive fails at the place of its
item, whatever is asked for; any other point fails as the search for its answer does. -/
inductive Point.Fails (r : Registry) : Point Payload → Fault → Prop
  | structureNonrecursive (path : ModulePath) (decls : List (TypeDecl Payload)) (span : Span) :
    Fails r (.site (.structure path (.types .nonrecursive decls span)))
      (.failure ⟨.nonrecursive, span⟩)
  | signatureNonrecursive (path : ModulePath) (decls : List (TypeDecl Payload)) (span : Span) :
    Fails r (.site (.signature path (.types .nonrecursive decls span)))
      (.failure ⟨.nonrecursive, span⟩)
  | structureTypes {path : ModulePath} {decls : List (TypeDecl Payload)} {fault : Fault}
    (span : Span) (h : r.structureTypes path decls = .error fault) :
    Fails r (.site (.structure path (.types .recursive decls span))) fault
  | signatureTypes {path : ModulePath} {decls : List (TypeDecl Payload)} {fault : Fault}
    (span : Span) (h : r.signatureTypes path decls = .error fault) :
    Fails r (.site (.signature path (.types .recursive decls span))) fault
  | structureExtension {path : ModulePath} {ext : TypeExtension Payload} {fault : Fault}
    (h : r.structureExtension path ext = .error fault) :
    Fails r (.site (.structure path (.extension ext))) fault
  | signatureExtension {path : ModulePath} {ext : TypeExtension Payload} {fault : Fault}
    (h : r.signatureExtension path ext = .error fault) :
    Fails r (.site (.signature path (.extension ext))) fault
  | placeholder {name : String} {payload : Payload} {span : Span} {fault : Fault}
    (h : r.inline name payload span = .error fault) :
    Fails r (.placeholder ⟨name, payload, span⟩) fault

/-- A point fails by itself exactly if its check does. -/
theorem Point.check_eq_error_iff {r : Registry} {p : Point Payload} {fault : Fault} :
    p.check r = .error fault ↔ p.Fails r fault := by
  constructor
  · intro h
    obtain (⟨path, subject⟩ | ⟨path, subject⟩) | ⟨name, payload, span⟩ := p
    · rw [check, Site.answer, Outcome.check_map, Outcome.check_eq_error_iff] at h
      cases subject with
      | types recursion decls span =>
          cases recursion with
          | recursive => exact .structureTypes span h
          | nonrecursive => cases h; exact .structureNonrecursive path decls span
      | extension ext => exact .structureExtension h
    · rw [check, Site.answer, Outcome.check_map, Outcome.check_eq_error_iff] at h
      cases subject with
      | types recursion decls span =>
          cases recursion with
          | recursive => exact .signatureTypes span h
          | nonrecursive => cases h; exact .signatureNonrecursive path decls span
      | extension ext => exact .signatureExtension h
    · exact .placeholder (Outcome.check_eq_error_iff.1 h)
  · intro h
    cases h with
    | structureNonrecursive | signatureNonrecursive => rfl
    | structureTypes span h | signatureTypes span h | structureExtension h
    | signatureExtension h =>
        rw [check, Site.answer, Outcome.check_map]
        exact Outcome.check_eq_error_iff.2 h
    | placeholder h => exact Outcome.check_eq_error_iff.2 h

/-- A check has no fault exactly if it passes. -/
theorem Point.check_eq_ok_iff {r : Registry} {p : Point Payload} :
    p.check r = .ok () ↔ ¬ ∃ fault, p.Fails r fault := by
  simp only [← Point.check_eq_error_iff]
  cases p.check r <;> simp

/-- The first point of a list that fails by itself does so with the given fault. -/
def Point.FirstFails (r : Registry) (points : List (Point Payload)) (fault : Fault) : Prop :=
  ∃ before p after, points = before ++ p :: after ∧
    (∀ q ∈ before, ¬ ∃ fault, Point.Fails r q fault) ∧ p.Fails r fault

/-- An expansion fails as the first of its points that fails. -/
theorem SourceUnit.expand_eq_error_iff {r : Registry} {path : ModulePath} {u : SourceUnit Payload}
    {fault : Fault} :
    u.expand r path = .error fault ↔ Point.FirstFails r (u.points path) fault := by
  rw [expand_eq, Outcome.bind_pure_eq_error_iff, Outcome.forM_eq_error_iff]
  simp only [Point.FirstFails, Point.check_eq_error_iff, Point.check_eq_ok_iff]

/-- **The first failure decides.** An expansion fails exactly as the first point in the order of a
walk that fails by itself, so exactly if some point does, and two units that agree up to their first
failing point fail alike. -/
theorem SourceUnit.first_failure_decides (r : Registry) (path : ModulePath) :
    (∀ (u : SourceUnit Payload) (fault : Fault),
      u.expand r path = .error fault ↔ Point.FirstFails r (u.points path) fault) ∧
    (∀ u : SourceUnit Payload,
      (∃ fault, u.expand r path = .error fault) ↔
        ∃ p ∈ u.points path, ∃ fault, p.Fails r fault) ∧
    ∀ (u v : SourceUnit Payload) (before : List (Point Payload)) (p : Point Payload)
      (after after' : List (Point Payload)) (fault : Fault),
      u.points path = before ++ p :: after → v.points path = before ++ p :: after' →
      (∀ q ∈ before, ¬ ∃ fault, q.Fails r fault) → p.Fails r fault →
      u.expand r path = .error fault ∧ v.expand r path = .error fault := by
  refine ⟨fun u fault => expand_eq_error_iff, fun u => ⟨?_, ?_⟩, ?_⟩
  · rintro ⟨fault, h⟩
    obtain ⟨before, p, after, hpoints, -, hp⟩ := expand_eq_error_iff.1 h
    exact ⟨p, hpoints ▸ List.mem_append_right _ List.mem_cons_self, fault, hp⟩
  · rintro ⟨p, hmem, fault, hp⟩
    cases h : u.expand r path with
    | error fault' => exact ⟨fault', rfl⟩
    | ok out => exact absurd ⟨fault, hp⟩ (Point.check_eq_ok_iff.1 ((expand_eq_ok_iff.1 h).1 p hmem))
  · intro u v before p after after' fault hu hv hbefore hp
    exact ⟨expand_eq_error_iff.2 ⟨before, p, after, hu, hbefore, hp⟩,
      expand_eq_error_iff.2 ⟨before, p, after', hv, hbefore, hp⟩⟩

/-- A functor included with a site that fails in its parameter. -/
def includedFunctor (body : List (StructureItem Payload)) : SourceUnit Payload :=
  .structure
    [⟨.include
      ⟨.functor
        (.named ⟨some "X", ⟨3, 4⟩⟩
          (.signature
            [.types .nonrecursive
              [{ TypeDecl.abstract "t" ⟨12, 20⟩ with
                attributes := [.withExpr "deriving" (.var "show" ⟨14, 18⟩)] }] ⟨11, 21⟩]
            ⟨10, 22⟩))
        (.structure body ⟨30, 40⟩),
        ⟨3, 40⟩, []⟩ [],
      ⟨1, 40⟩⟩]

/-- The placeholder in the body would fail too, but it is met after the parameter. -/
theorem SourceUnit.first_failure_decides_includedFunctor :
    (includedFunctor
        [.eval (.extension (.named "derive.show" Payload.empty ⟨33, 38⟩) ⟨32, 38⟩) ⟨31, 39⟩]).expand
          .empty .root = .error (.failure ⟨.nonrecursive, ⟨11, 21⟩⟩) ∧
      (includedFunctor []).expand .empty .root = .error (.failure ⟨.nonrecursive, ⟨11, 21⟩⟩) :=
  (first_failure_decides .empty .root).2.2 _ _ [] _ _ _ _ rfl rfl nofun
    (.signatureNonrecursive _ _ _)

end DeriveKit
