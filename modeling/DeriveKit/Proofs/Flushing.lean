import DeriveKit.Proofs.Reporting

/-!
# DeriveKit.Proofs.Flushing

Emptying a queue. The reports that were kept come out in the order of the source, those about one
place in the order in which they were pushed (`Queue.sortedByPlace_mergeSort`). A report of how many
errors were suppressed follows if any were. What is left is a new queue with the same limit
(`Queue.fst_flush_of_run`), whatever was done with it before.
-/

namespace DeriveKit

namespace Diagnostic

variable {d e f : Diagnostic}

/-- A report may stand before another one: it has no place, or both have one and its own starts
first, or at the same point and does not reach further. -/
def NotAfter (d e : Diagnostic) : Prop :=
  ∀ s, d.place? = some s →
    ∃ t, e.place? = some t ∧ (s.start < t.start ∨ s.start = t.start ∧ s.stop ≤ t.stop)

/-- The order of places is transitive. -/
theorem NotAfter.trans (h : d.NotAfter e) (h' : e.NotAfter f) : d.NotAfter f := by
  intro s hs
  obtain ⟨t, ht, hst⟩ := h s hs
  obtain ⟨u, hu, htu⟩ := h' t ht
  refine ⟨u, hu, ?_⟩
  simp only [UInt32.lt_iff_toNat_lt, UInt32.le_iff_toNat_le, ← UInt32.toNat_inj] at *
  omega

/-- Any two reports are in one order or the other. -/
theorem NotAfter.total (d e : Diagnostic) : d.NotAfter e ∨ e.NotAfter d := by
  cases hd : d.place? with
  | none => exact .inl fun s hs => by simp [hd] at hs
  | some s =>
      cases he : e.place? with
      | none => exact .inr fun t ht => by simp [he] at ht
      | some t =>
          have horder : (s.start < t.start ∨ s.start = t.start ∧ s.stop ≤ t.stop) ∨
              (t.start < s.start ∨ t.start = s.start ∧ t.stop ≤ s.stop) := by
            simp only [UInt32.lt_iff_toNat_lt, UInt32.le_iff_toNat_le, ← UInt32.toNat_inj]
            omega
          simpa [NotAfter, hd, he] using horder

/-- Reports about the same place may stand in any order. -/
theorem NotAfter.of_place_eq (h : d.place? = e.place?) : d.NotAfter e :=
  fun s hs => ⟨s, h ▸ hs, .inr ⟨rfl, UInt32.le_refl s.stop⟩⟩

/-- The same reports in the order of the source. Those about one place stay in their order. -/
structure SortedByPlace (ds sorted : List Diagnostic) : Prop where
  perm : sorted.Perm ds
  ordered : sorted.Pairwise NotAfter
  stable : ∀ place, sorted.filter (·.place? = place) = ds.filter (·.place? = place)

end Diagnostic

namespace Queue

open Diagnostic

variable {q : Queue} {limit : Option Nat} {ops : List Operation}

/-! ## the order of the source -/

/-- The comparison that the queue sorts with is that order (`Diagnostic.NotAfter`). -/
theorem comesBefore_iff {d e : Diagnostic} : comesBefore d e = true ↔ d.NotAfter e := by
  unfold comesBefore NotAfter
  cases d.place? <;> cases e.place? <;> simp

theorem comesBefore_trans (d e f : Diagnostic) (h : comesBefore d e = true)
    (h' : comesBefore e f = true) : comesBefore d f = true := by
  rw [comesBefore_iff] at h h' ⊢
  exact h.trans h'

theorem comesBefore_total (d e : Diagnostic) : (comesBefore d e || comesBefore e d) = true := by
  rw [Bool.or_eq_true, comesBefore_iff, comesBefore_iff]
  exact NotAfter.total d e

/-- Sorting loses nothing and moves reports about one place past others only. -/
theorem sortedByPlace_mergeSort (ds : List Diagnostic) :
    SortedByPlace ds (ds.mergeSort comesBefore) where
  perm := List.mergeSort_perm ds comesBefore
  ordered :=
    (List.pairwise_mergeSort comesBefore_trans comesBefore_total ds).imp comesBefore_iff.1
  stable place := by
    have hperm := (List.mergeSort_perm ds comesBefore).filter (·.place? = place)
    -- the reports about one place are sorted as they are, so they stay a sublist
    have hsame : (ds.filter (·.place? = place)).Pairwise fun d e => comesBefore d e = true := by
      refine List.pairwise_of_forall_mem_list fun d hd e he => comesBefore_iff.2 (.of_place_eq ?_)
      rw [of_decide_eq_true (List.mem_filter.1 hd).2, of_decide_eq_true (List.mem_filter.1 he).2]
    have hsub := (List.sublist_mergeSort comesBefore_trans comesBefore_total hsame
      List.filter_sublist).filter (·.place? = place)
    rw [List.filter_filter] at hsub
    simp only [Bool.and_self] at hsub
    exact (hsub.eq_of_length hperm.length_eq.symm).symm

/-! ## what is left -/

/-- No operation changes the limit of a queue. -/
theorem limit_of_run (h : Operation.run (empty limit) ops = .ok q) : q.limit = limit := by
  rw [eq_pushAll_of_run h, limit_pushAll]
  rfl

/-- Whatever was done with a queue, emptying it leaves a new one. -/
theorem fst_flush_of_run (h : Operation.run (empty limit) ops = .ok q) :
    q.flush.1 = empty limit := by
  rw [flush, limit_of_run h]

/-- **Emptying a queue loses nothing and starts over.** Whatever was done with a queue, what it has
kept are reports in the order in which they were pushed. When it is emptied they come out in the
order of the source, with those about one place still in the order of the pushes, and after them
comes one error with a code of its own exactly if some were suppressed. The queue that is left is a
new one with the same limit, so all that is done later has the results that it has with a new
queue. -/
theorem flush_sorts_and_resets (h : Operation.run (empty limit) ops = .ok q) :
    q.kept.Sublist (Operation.submitted ops) ∧
    (∃ sorted, SortedByPlace q.kept sorted ∧
      (q.suppressed = 0 ∧ q.flush.2 = sorted ∨
        0 < q.suppressed ∧ q.flush.2 = sorted ++ [summary q.suppressed] ∧
          (summary q.suppressed).code.text = "E9002" ∧ (summary q.suppressed).isError = true)) ∧
    q.flush.1 = empty limit ∧
    ∀ later, Operation.run q (.flush :: later) = Operation.run (empty limit) later := by
  refine ⟨?_, ⟨_, sortedByPlace_mergeSort q.kept, ?_⟩, fst_flush_of_run h, fun later => ?_⟩
  · rw [eq_pushAll_of_run h]
    exact kept_pushAll_sublist (empty limit) _
  · cases hsuppressed : q.suppressed with
    | zero => exact .inl ⟨rfl, by simp [flush, hsuppressed]⟩
    | succ n => exact .inr ⟨Nat.succ_pos n, by simp [flush, hsuppressed], rfl, rfl⟩
  · have hfirst : Operation.run q (.flush :: later) = Operation.run q.flush.1 later := rfl
    rw [hfirst, fst_flush_of_run h]

/-- Reports that are shown, then reports out of the order of the source, of which there is no room
for the last. -/
def mixedReports : List Operation :=
  [.push (.ofCode .error .generatorError), .flush,
    .push ((Diagnostic.ofCode .error .unknownGenerator).at' ⟨30, 34⟩ "here"),
    .push ((Diagnostic.ofCode .warning .invalidOption).at' ⟨10, 14⟩ "first"),
    .push ((Diagnostic.ofCode .warning .invalidAttribute).at' ⟨10, 14⟩ "second"),
    .push (.ofCode .warning .generatorError),
    .emit ((Diagnostic.ofCode .error .unsupported).at' ⟨5, 9⟩ "too many") rfl]

/-- One error is not shown, and doing the same again has the same result. -/
theorem flush_sorts_and_resets_mixedReports :
    ∃ q : Queue, Operation.run (empty (some 1)) mixedReports = .ok q ∧ q.kept.length = 4 ∧
      (∃ sorted, SortedByPlace q.kept sorted ∧ q.flush.2 = sorted ++ [summary 1]) ∧
      Operation.run q (.flush :: mixedReports) = .ok q := by
  have hrun : Operation.run (empty (some 1)) mixedReports = .ok _ := rfl
  refine ⟨_, hrun, rfl, ?_, ?_⟩
  · obtain ⟨-, ⟨sorted, hsorted, hnone | ⟨-, hflush, -⟩⟩, -⟩ := flush_sorts_and_resets hrun
    · exact absurd hnone.1 (by decide)
    · exact ⟨sorted, hsorted, hflush⟩
  · exact ((flush_sorts_and_resets hrun).2.2.2 mixedReports).trans hrun

end Queue

end DeriveKit
