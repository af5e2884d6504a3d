import DeriveKit.Diagnostic.Queue

/-!
# DeriveKit.Proofs.Pushes

Reports added to a queue one after the other. What a queue holds stays in order (`Queue.Tidy`): the
counter counts the errors that are kept, no report is kept twice, and the limit is not exceeded. One
push keeps this (`Tidy.push`), so every sequence of them does (`Tidy.pushAll`).
-/

namespace DeriveKit

namespace Queue

/-- The queue after reports are added in order. -/
def pushAll (q : Queue) (ds : List Diagnostic) : Queue := ds.foldl (fun q d => (q.push d).1) q

@[simp] theorem pushAll_nil (q : Queue) : q.pushAll [] = q := rfl

@[simp] theorem pushAll_singleton (q : Queue) (d : Diagnostic) : q.pushAll [d] = (q.push d).1 := rfl

/-- Pushing two lists of reports is pushing the one and then the other. -/
theorem pushAll_append (q : Queue) (ds es : List Diagnostic) :
    q.pushAll (ds ++ es) = (q.pushAll ds).pushAll es :=
  List.foldl_append

/-- The last report is pushed onto what the ones before it leave. -/
theorem pushAll_concat (q : Queue) (ds : List Diagnostic) (d : Diagnostic) :
    q.pushAll (ds ++ [d]) = ((q.pushAll ds).push d).1 := by
  rw [pushAll_append, pushAll_singleton]

/-- A queue is full if there is a limit and the counter has come to it. -/
theorem isFull_eq_true_iff {q : Queue} :
    q.isFull = true ↔ ∃ limit, q.limit = some limit ∧ limit ≤ q.errorCount := by
  unfold isFull
  cases q.limit <;> simp

/-- A push does not change the limit. -/
@[simp] theorem limit_push (q : Queue) (d : Diagnostic) : (q.push d).1.limit = q.limit := by
  have h := q.pushed_push d
  generalize q.push d = p at h
  cases h <;> rfl

/-- No number of pushes changes the limit. -/
@[simp] theorem limit_pushAll (q : Queue) (ds : List Diagnostic) :
    (q.pushAll ds).limit = q.limit := by
  induction ds generalizing q with
  | nil => rfl
  | cons d ds ih => exact (ih (q.push d).1).trans (limit_push q d)

/-- What a push adds to the reports that are kept is its report or nothing. -/
theorem kept_push_sublist (q : Queue) (d : Diagnostic) :
    (q.push d).1.kept.Sublist (q.kept ++ [d]) := by
  have h := q.pushed_push d
  generalize q.push d = p at h
  cases h with
  | repeated | suppressed => exact List.sublist_append_left q.kept [d]
  | error | warning => exact List.Sublist.refl _

/-- What a queue keeps are some of the reports that it was given, in the order of the pushes. -/
theorem kept_pushAll_sublist (q : Queue) (ds : List Diagnostic) :
    (q.pushAll ds).kept.Sublist (q.kept ++ ds) := by
  induction ds generalizing q with
  | nil => simp
  | cons d ds ih =>
      have hcons : q.pushAll (d :: ds) = (q.push d).1.pushAll ds := rfl
      have hrest := (ih (q.push d).1).trans ((kept_push_sublist q d).append_right ds)
      rw [hcons]
      simpa using hrest

/-- A queue counts the errors that it keeps, keeps no report twice, and keeps no more errors than
it may. -/
structure Tidy (q : Queue) : Prop where
  errorCount_eq : q.errorCount = q.kept.countP (·.isError)
  distinct : q.kept.Pairwise fun d e => ¬ d.SameReport e
  errorCount_le : ∀ limit, q.limit = some limit → q.errorCount ≤ limit

/-- A new queue is in order (`Queue.Tidy`). -/
theorem Tidy.empty (limit : Option Nat) : (empty limit).Tidy where
  errorCount_eq := rfl
  distinct := .nil
  errorCount_le _ _ := Nat.zero_le _

/-- A report unlike those kept can be kept after them. -/
theorem Tidy.distinct_concat {q : Queue} (h : q.Tidy) {d : Diagnostic}
    (hnew : ∀ e ∈ q.kept, ¬ e.SameReport d) :
    (q.kept ++ [d]).Pairwise fun d e => ¬ d.SameReport e := by
  rw [List.pairwise_append]
  refine ⟨h.distinct, List.pairwise_singleton _ _, fun e he f hf => ?_⟩
  rw [List.mem_singleton.1 hf]
  exact hnew e he

/-- A push leaves a queue in order. -/
theorem Tidy.push {q : Queue} (h : q.Tidy) (d : Diagnostic) : (q.push d).1.Tidy := by
  have hpush := q.pushed_push d
  generalize q.push d = p at hpush
  cases hpush with
  | repeated => exact h
  | suppressed => exact ⟨h.errorCount_eq, h.distinct, h.errorCount_le⟩
  | error hnew herror hroom =>
      refine ⟨?_, h.distinct_concat hnew, fun limit hlimit => ?_⟩
      · simp [List.countP_append, herror, h.errorCount_eq]
      · have hbelow : ¬ limit ≤ q.errorCount := fun hle => by
          have hfull : q.isFull = true := isFull_eq_true_iff.2 ⟨limit, hlimit, hle⟩
          rw [hfull] at hroom
          cases hroom
        show q.errorCount + 1 ≤ limit
        omega
  | warning hnew hwarning =>
      refine ⟨?_, h.distinct_concat hnew, h.errorCount_le⟩
      simp [List.countP_append, hwarning, h.errorCount_eq]

/-- Every sequence of pushes keeps a queue in order, by `Tidy.push` one after the other. -/
theorem Tidy.pushAll {q : Queue} (h : q.Tidy) (ds : List Diagnostic) : (q.pushAll ds).Tidy := by
  induction ds generalizing q with
  | nil => exact h
  | cons d ds ih => exact ih (h.push d)

/-- Within its limit, a queue has no room exactly if it has as many errors as it may. -/
theorem Tidy.isFull_iff {q : Queue} (h : q.Tidy) {limit : Nat} (hlimit : q.limit = some limit) :
    q.isFull = true ↔ q.errorCount = limit := by
  have hle := h.errorCount_le limit hlimit
  rw [isFull_eq_true_iff]
  constructor
  · rintro ⟨limit', hlimit', hfull⟩
    rw [hlimit] at hlimit'
    cases hlimit'
    omega
  · intro heq
    exact ⟨limit, hlimit, Nat.le_of_eq heq.symm⟩

end Queue

end DeriveKit
