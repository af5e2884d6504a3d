import DeriveKit.Proofs.Reporting
import DeriveKit.Proofs.Truncation

/-!
# DeriveKit.Proofs.SuppressedCount

The number in the report of how many errors were suppressed. It counts the errors that were
submitted and are not shown, as often as each was submitted (`Queue.Counts`): what there was no room
for is not remembered, so a repetition of it is not told from a new error. It is the number of
different errors that are not shown exactly if none of them was submitted twice
(`Diagnostic.length_firsts_eq_iff`).
-/

namespace DeriveKit

namespace Diagnostic

/-! ## different reports -/

/-- First occurrences are some of the reports, in their order. -/
theorem firsts_sublist (ds : List Diagnostic) : (firsts ds).Sublist ds := by
  rw [← Queue.kept_unlimited]
  exact (Queue.empty none).kept_pushAll_sublist ds

/-- No two of the first occurrences are the same report. -/
theorem distinct_firsts (ds : List Diagnostic) :
    (firsts ds).Pairwise fun d e => ¬ d.SameReport e := by
  rw [← Queue.kept_unlimited]
  exact ((Queue.Tidy.empty none).pushAll ds).distinct

/-- Reports that are all different are all first occurrences. -/
theorem firsts_of_distinct {ds : List Diagnostic}
    (h : ds.Pairwise fun d e => ¬ d.SameReport e) : firsts ds = ds := by
  induction ds using List.reverseRecOn with
  | nil => rfl
  | append_singleton ds d ih =>
      rw [List.pairwise_append] at h
      have hnew : ∀ e ∈ firsts ds, ¬ e.SameReport d := fun e he =>
        h.2.2 e ((firsts_sublist ds).subset he) d (List.mem_singleton_self d)
      rw [firsts_concat_of_new hnew, ih h.1]

/-- There are as many different reports as reports exactly if none is a repetition. -/
theorem length_firsts_eq_iff {ds : List Diagnostic} :
    (firsts ds).length = ds.length ↔ ds.Pairwise fun d e => ¬ d.SameReport e := by
  constructor
  · intro h
    rw [← (firsts_sublist ds).eq_of_length h]
    exact distinct_firsts ds
  · intro h
    rw [firsts_of_distinct h]

end Diagnostic

namespace Queue

open Diagnostic

variable {q : Queue} {ds : List Diagnostic}

/-! ## errors that are not shown -/

/-- The errors among some reports that are not kept, each as often as it is there. -/
def lost (q : Queue) (ds : List Diagnostic) : List Diagnostic :=
  ds.filter fun d => d.isError ∧ ∀ e ∈ q.kept, ¬ e.SameReport d

/-- One more report is lost or is not. -/
theorem lost_concat (q : Queue) (ds : List Diagnostic) (d : Diagnostic) :
    q.lost (ds ++ [d]) =
      q.lost ds ++ if d.isError ∧ ∀ e ∈ q.kept, ¬ e.SameReport d then [d] else [] := by
  rw [lost, List.filter_append, lost]
  by_cases h : d.isError ∧ ∀ e ∈ q.kept, ¬ e.SameReport d
  · rw [if_pos h, List.filter_singleton, decide_eq_true h]
    rfl
  · rw [if_neg h, List.filter_singleton, decide_eq_false h]
    rfl

/-- A report that is kept in addition is not lost any more. -/
theorem lost_of_kept (q : Queue) (d : Diagnostic) (errorCount : Nat) (ds : List Diagnostic) :
    lost { q with kept := q.kept ++ [d], errorCount } ds =
      (q.lost ds).filter fun e => !decide (d.SameReport e) := by
  rw [lost, lost, List.filter_filter]
  refine List.filter_congr fun e _ => ?_
  rw [Bool.eq_iff_iff]
  simp only [List.forall_mem_append, List.forall_mem_singleton, Bool.and_eq_true,
    Bool.not_eq_true', decide_eq_true_eq, decide_eq_false_iff_not]
  exact ⟨fun ⟨herror, hkept, hnot⟩ => ⟨hnot, herror, hkept⟩,
    fun ⟨hnot, herror, hkept⟩ => ⟨herror, hkept, hnot⟩⟩

/-- The queue has counted the errors that it lost, and it has lost some only if it is full. -/
structure Counts (q : Queue) (ds : List Diagnostic) : Prop where
  suppressed_eq : q.suppressed = (q.lost ds).length
  isFull_of_pos : 0 < q.suppressed → q.isFull = true

/-- An empty queue has lost nothing. -/
theorem Counts.empty (limit : Option Nat) : (empty limit).Counts [] :=
  ⟨rfl, fun h => absurd h (Nat.lt_irrefl 0)⟩

/-- A queue that still has room has lost nothing. -/
theorem Counts.lost_eq_nil (h : q.Counts ds) (hroom : q.isFull = false) : q.lost ds = [] := by
  have hzero : q.suppressed = 0 := by
    by_contra hpos
    rw [h.isFull_of_pos (Nat.pos_of_ne_zero hpos)] at hroom
    cases hroom
  rw [← List.length_eq_zero_iff, ← h.suppressed_eq, hzero]

/-- A push leaves the count right. -/
theorem Counts.push (h : q.Counts ds) (d : Diagnostic) : (q.push d).1.Counts (ds ++ [d]) := by
  have hpush := q.pushed_push d
  generalize q.push d = p at hpush
  cases hpush with
  | repeated hknown =>
      refine ⟨?_, h.isFull_of_pos⟩
      rw [lost_concat, if_neg fun hnew => hknown.elim fun e he => hnew.2 e he.1 he.2,
        List.append_nil]
      exact h.suppressed_eq
  | suppressed hnew herror hfull =>
      refine ⟨?_, fun _ => hfull⟩
      have hlost : (q.lost (ds ++ [d])).length = (q.lost ds).length + 1 := by
        rw [lost_concat, if_pos ⟨herror, hnew⟩, List.length_append, List.length_singleton]
      show q.suppressed + 1 = (q.lost (ds ++ [d])).length
      rw [hlost, h.suppressed_eq]
  | error hnew herror hroom =>
      -- there was room, so nothing was lost before
      have hnone := h.lost_eq_nil hroom
      have hzero : q.suppressed = 0 := by rw [h.suppressed_eq, hnone]; rfl
      refine ⟨?_, fun hpos => absurd hzero (Nat.ne_of_gt hpos)⟩
      rw [lost_of_kept, lost_concat, hnone, if_pos ⟨herror, hnew⟩]
      simp [hzero, SameReport.refl]
  | warning hnew hwarning =>
      refine ⟨?_, h.isFull_of_pos⟩
      have hsame : (q.lost ds).filter (fun e => !decide (d.SameReport e)) = q.lost ds := by
        rw [List.filter_eq_self]
        intro e he
        have herror : e.isError = true := by simp [lost] at he; exact he.2.1
        have hnot : ¬ d.SameReport e := fun hsame => by
          rw [← hsame.isError_eq, hwarning] at herror
          cases herror
        simpa using hnot
      rw [lost_of_kept, lost_concat, hwarning]
      simpa [hsame] using h.suppressed_eq

/-- Submitting reports one after the other keeps the count. -/
theorem Counts.pushAll (h : q.Counts ds) (es : List Diagnostic) :
    (q.pushAll es).Counts (ds ++ es) := by
  induction es generalizing q ds with
  | nil => simpa using h
  | cons e es ih =>
      have hcons : q.pushAll (e :: es) = (q.push e).1.pushAll es := rfl
      rw [hcons]
      simpa using ih (h.push e)

/-- After any run the count is right for what was submitted since the last flush. -/
theorem counts_of_run {limit : Option Nat} {ops : List Operation}
    (h : Operation.run (empty limit) ops = .ok q) : q.Counts (Operation.submitted ops) := by
  rw [eq_pushAll_of_run h]
  simpa using (Counts.empty limit).pushAll (Operation.submitted ops)

/-! ## the number that is told -/

/-- **The summary counts submissions.** When a queue is emptied after any work, the number of
suppressed errors is told exactly if there are any. It is the number of errors that were submitted
since the queue was last emptied and are not shown, repetitions included. There are at most as many
different ones, and as many exactly if none of them was submitted twice. -/
theorem summary_counts_submissions {limit : Option Nat} {ops : List Operation}
    (h : Operation.run (empty limit) ops = .ok q) :
    (∃ shown, shown.Perm q.kept ∧
      q.flush.2 = shown ++ if 0 < q.suppressed then [summary q.suppressed] else []) ∧
    q.suppressed = (q.lost (Operation.submitted ops)).length ∧
    (firsts (q.lost (Operation.submitted ops))).length ≤ q.suppressed ∧
    (q.suppressed = (firsts (q.lost (Operation.submitted ops))).length ↔
      (q.lost (Operation.submitted ops)).Pairwise fun d e => ¬ d.SameReport e) := by
  have hcount := (counts_of_run h).suppressed_eq
  refine ⟨⟨_, List.mergeSort_perm q.kept comesBefore, rfl⟩, hcount, ?_, ?_⟩
  · rw [hcount]
    exact (firsts_sublist _).length_le
  · rw [hcount, eq_comm, length_firsts_eq_iff]

/-- An error that is shown, and then two that there is no room for. -/
def overflowing : List Operation :=
  let push (code : Code) := Operation.push (.ofCode .error code)
  [push .generatorError, push .unsupported, push .generatorError, push .unknownGenerator]

/-- Two different errors are not shown, and two are counted. -/
theorem summary_counts_submissions_overflowing :
    ∃ q : Queue, Operation.run (empty (some 1)) overflowing = .ok q ∧ q.suppressed = 2 ∧
      (firsts (q.lost (Operation.submitted overflowing))).length = 2 := by
  have hrun : Operation.run (empty (some 1)) overflowing = .ok _ := rfl
  have hdistinct := (summary_counts_submissions hrun).2.2.2
  exact ⟨_, hrun, rfl, (hdistinct.2 (by decide)).symm⟩

/-- One error that there is no room for, submitted twice, is told as two. -/
theorem repeated_loss_counts_twice :
    let d := Diagnostic.ofCode .error .generatorError
    let q := (empty (some 0)).pushAll [d, d]
    q.flush.2 = [summary 2] ∧ (firsts (q.lost [d, d])).length = 1 := by
  refine ⟨?_, by decide⟩
  have hkept : ((empty (some 0)).pushAll
      [Diagnostic.ofCode .error .generatorError, .ofCode .error .generatorError]).kept = [] := rfl
  rw [flush, hkept, List.mergeSort_nil]
  rfl

end Queue

end DeriveKit
