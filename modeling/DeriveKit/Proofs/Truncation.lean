import DeriveKit.Proofs.Pushes
import Mathlib.Data.List.Induction

/-!
# DeriveKit.Proofs.Truncation

A queue with a limit beside one without, both given the same reports.

* `Queue.kept_unlimited` — without a limit a queue keeps the first occurrence of each report;
* `Queue.kept_limited` — with a limit it keeps of these all warnings and the first errors, as many
  as it may, although it does not remember what it had no room for;
* `Queue.suppressed_pushAll` — what it counts as suppressed are the errors that it did not keep,
  without those that repeat one it had kept.
-/

namespace DeriveKit

/-! ## first occurrences -/

/-- A new member of a list without repetitions comes last, unless it is a repetition itself. -/
theorem eraseDupsBy_concat {α : Type} {r : α → α → Bool} (a : α) : (l : List α) →
    (l ++ [a]).eraseDupsBy r =
      l.eraseDupsBy r ++ if (l.eraseDupsBy r).any (r a) then [] else [a]
  | [] => rfl
  | b :: l => by
      rw [List.cons_append, List.eraseDupsBy_cons, List.eraseDupsBy_cons, List.filter_append,
        List.any_cons]
      cases hab : r a b with
      | true => simp [hab]
      | false =>
          have hsingle : [a].filter (fun c => r c b = false) = [a] := by simp [hab]
          rw [hsingle, eraseDupsBy_concat a _, Bool.false_or, List.cons_append]
termination_by l => l.length
decreasing_by exact Nat.lt_succ_of_le (List.length_filter_le _ _)

namespace Diagnostic

/-- The first occurrence of each report. -/
def firsts (ds : List Diagnostic) : List Diagnostic :=
  ds.eraseDupsBy fun d e => decide (d.SameReport e)

@[simp] theorem firsts_nil : firsts [] = [] := rfl

/-- A report that was not there before is a first occurrence. -/
theorem firsts_concat_of_new {ds : List Diagnostic} {d : Diagnostic}
    (h : ∀ e ∈ firsts ds, ¬ e.SameReport d) : firsts (ds ++ [d]) = firsts ds ++ [d] := by
  have hany : (firsts ds).any (fun e => decide (d.SameReport e)) = false := by
    rw [List.any_eq_false]
    intro e he hsame
    exact h e he (of_decide_eq_true hsame).symm
  rw [firsts, eraseDupsBy_concat, ← firsts, hany]
  rfl

/-- A repeated report adds nothing to the first occurrences. -/
theorem firsts_concat_of_repeated {ds : List Diagnostic} {d : Diagnostic}
    (h : ∃ e ∈ firsts ds, e.SameReport d) : firsts (ds ++ [d]) = firsts ds := by
  obtain ⟨e, he, hsame⟩ := h
  have hany : (firsts ds).any (fun e => decide (d.SameReport e)) = true :=
    List.any_eq_true.2 ⟨e, he, decide_eq_true hsame.symm⟩
  rw [firsts, eraseDupsBy_concat, ← firsts, hany]
  exact List.append_nil _

/-! ## all warnings and some errors -/

/-- All warnings of a list and its first errors, as many as `limit` says. -/
def truncate : Nat → List Diagnostic → List Diagnostic
  | _, [] => []
  | 0, d :: rest => if d.isError then truncate 0 rest else d :: truncate 0 rest
  | limit + 1, d :: rest =>
      if d.isError then d :: truncate limit rest else d :: truncate (limit + 1) rest

/-- Truncation leaves some reports out and keeps the order of the others. -/
theorem truncate_sublist (limit : Nat) (ds : List Diagnostic) : (truncate limit ds).Sublist ds := by
  fun_induction truncate limit ds with
  | case1 => exact .slnil
  | case2 d rest _ ih => exact ih.cons d
  | case3 d rest _ ih => exact ih.cons_cons d
  | case4 limit d rest _ ih => exact ih.cons_cons d
  | case5 limit d rest _ ih => exact ih.cons_cons d

/-- No warning is left out. -/
theorem warnings_truncate (limit : Nat) (ds : List Diagnostic) :
    (truncate limit ds).filter (fun d => !d.isError) = ds.filter fun d => !d.isError := by
  fun_induction truncate limit ds with
  | case1 => rfl
  | case2 d rest herror ih => simp [herror, ih]
  | case3 d rest herror ih => simp [herror, ih]
  | case4 limit d rest herror ih => simp [herror, ih]
  | case5 limit d rest herror ih => simp [herror, ih]

/-- Of the errors the first ones stay. -/
theorem errors_truncate (limit : Nat) (ds : List Diagnostic) :
    (truncate limit ds).filter (·.isError) = (ds.filter (·.isError)).take limit := by
  fun_induction truncate limit ds with
  | case1 => simp
  | case2 d rest herror ih => simpa [herror] using ih
  | case3 d rest herror ih => simpa [herror] using ih
  | case4 limit d rest herror ih => simp [herror, ih]
  | case5 limit d rest herror ih => simpa [herror] using ih

/-- How many errors stay. -/
theorem countP_truncate (limit : Nat) (ds : List Diagnostic) :
    (truncate limit ds).countP (·.isError) = min limit (ds.countP (·.isError)) := by
  rw [List.countP_eq_length_filter, errors_truncate, List.length_take, List.countP_eq_length_filter]

/-- A warning is in the truncated list, and an error is if there is room for all errors. -/
theorem mem_truncate {limit : Nat} {ds : List Diagnostic} {d : Diagnostic} (hd : d ∈ ds)
    (hroom : d.isError = true → ds.countP (·.isError) ≤ limit) : d ∈ truncate limit ds := by
  cases herror : d.isError with
  | false =>
      have hmem : d ∈ (truncate limit ds).filter fun d => !d.isError := by
        rw [warnings_truncate]
        exact List.mem_filter.2 ⟨hd, by simp [herror]⟩
      exact (List.mem_filter.1 hmem).1
  | true =>
      have hmem : d ∈ (truncate limit ds).filter (·.isError) := by
        rw [errors_truncate, List.take_of_length_le]
        · exact List.mem_filter.2 ⟨hd, herror⟩
        · rw [← List.countP_eq_length_filter]
          exact hroom herror
      exact (List.mem_filter.1 hmem).1

/-- One more report at the end stays, unless it is an error and the limit is reached. -/
theorem truncate_concat (limit : Nat) (ds : List Diagnostic) (d : Diagnostic) :
    truncate limit (ds ++ [d]) = truncate limit ds ++
      if d.isError ∧ limit ≤ ds.countP (·.isError) then [] else [d] := by
  fun_induction truncate limit ds with
  | case1 limit => cases limit <;> cases h : d.isError <;> simp [truncate, h]
  | case2 e rest herror ih => simp [truncate, herror, ih]
  | case3 e rest herror ih => simp [truncate, herror, ih]
  | case4 limit e rest herror ih => simp [truncate, herror, ih]
  | case5 limit e rest herror ih => simp [truncate, herror, ih]

end Diagnostic

namespace Queue

open Diagnostic

/-! ## what is kept -/

/-- A queue without a limit has always room. -/
theorem isFull_of_unlimited {q : Queue} (h : q.limit = none) : q.isFull = false := by
  rw [isFull, h]

/-- **Without a limit** a queue keeps the first occurrence of each report. -/
theorem kept_unlimited (ds : List Diagnostic) : ((empty none).pushAll ds).kept = firsts ds := by
  induction ds using List.reverseRecOn with
  | nil => rfl
  | append_singleton ds d ih =>
      have hfull : ((empty none).pushAll ds).isFull = false :=
        isFull_of_unlimited (limit_pushAll _ _)
      have hpush := ((empty none).pushAll ds).pushed_push d
      rw [pushAll_concat]
      generalize ((empty none).pushAll ds).push d = p at hpush
      cases hpush with
      | repeated h =>
          rw [ih] at h
          rw [firsts_concat_of_repeated h, ← ih]
      | suppressed _ _ hfull' => rw [hfull] at hfull'; cases hfull'
      | error hnew _ _ | warning hnew _ =>
          rw [ih] at hnew
          rw [firsts_concat_of_new hnew, ← ih]

/-- **With a limit** a queue keeps all warnings among these and the first errors. -/
theorem kept_limited (limit : Nat) (ds : List Diagnostic) :
    ((empty (some limit)).pushAll ds).kept = truncate limit (firsts ds) := by
  induction ds using List.reverseRecOn with
  | nil => cases limit <;> rfl
  | append_singleton ds d ih =>
      have htidy := (Tidy.empty (some limit)).pushAll ds
      have hfull := htidy.isFull_iff (limit_pushAll _ _)
      have hcount := htidy.errorCount_eq
      rw [ih, countP_truncate] at hcount
      have hpush := ((empty (some limit)).pushAll ds).pushed_push d
      rw [pushAll_concat]
      generalize (empty (some limit)).pushAll ds = q at *
      generalize q.push d = p at hpush
      cases hpush with
      | repeated h =>
          obtain ⟨e, he, hsame⟩ := h
          rw [ih] at he
          rw [firsts_concat_of_repeated ⟨e, (truncate_sublist _ _).subset he, hsame⟩, ih]
      | suppressed hnew herror hfull' =>
          -- the report may be one that there was no room for before
          have hroom : limit ≤ (firsts ds).countP (·.isError) := by
            have := hfull.1 hfull'
            omega
          by_cases h : ∃ e ∈ firsts ds, e.SameReport d
          · rw [firsts_concat_of_repeated h, ih]
          · rw [firsts_concat_of_new (by simpa using h), truncate_concat, if_pos ⟨herror, hroom⟩,
              List.append_nil, ih]
      | error hnew herror hroom =>
          have hbelow : (firsts ds).countP (·.isError) < limit := by
            have : ¬ q.errorCount = limit := fun h => by simp [hfull.2 h] at hroom
            omega
          have hfirst : ∀ e ∈ firsts ds, ¬ e.SameReport d := fun e he hsame =>
            hnew e (ih ▸ mem_truncate he fun _ => Nat.le_of_lt hbelow) hsame
          rw [firsts_concat_of_new hfirst, truncate_concat, if_neg (by omega), ih]
      | warning hnew hwarning =>
          have hfirst : ∀ e ∈ firsts ds, ¬ e.SameReport d := fun e he hsame =>
            hnew e (ih ▸ mem_truncate he fun herror => by
              rw [hsame.isError_eq, hwarning] at herror
              cases herror) hsame
          rw [firsts_concat_of_new hfirst, truncate_concat, if_neg (by simp [hwarning]), ih]

/-! ## what is lost -/

/-- The report is kept, as the last one. -/
def Stores (q : Queue) (d : Diagnostic) : Prop := (q.push d).1.kept = q.kept ++ [d]

/-- The report is of an error that is not kept, although no report like it was. -/
def Loses (q : Queue) (d : Diagnostic) : Prop :=
  d.isError = true ∧ ¬ q.Stores d ∧ ∀ e ∈ q.kept, ¬ e.SameReport d

instance (q : Queue) (d : Diagnostic) : Decidable (q.Stores d) := by
  unfold Stores; infer_instance

instance (q : Queue) (d : Diagnostic) : Decidable (q.Loses d) := by
  unfold Loses; infer_instance

/-- Each report of a list, with the queue that it is added to. -/
def meetings (q : Queue) : List Diagnostic → List (Queue × Diagnostic)
  | [] => []
  | d :: rest => (q, d) :: meetings (q.push d).1 rest

/-- A push tells whether it keeps the report. -/
theorem push_snd_iff (q : Queue) (d : Diagnostic) : (q.push d).2 = true ↔ q.Stores d := by
  have hpush := q.pushed_push d
  unfold Stores
  generalize q.push d = p at hpush
  cases hpush <;> simp

/-- A push counts the report as suppressed if it loses it. -/
theorem suppressed_push (q : Queue) (d : Diagnostic) :
    (q.push d).1.suppressed = q.suppressed + if q.Loses d then 1 else 0 := by
  have hpush := q.pushed_push d
  have hstores := push_snd_iff q d
  by_cases hloses : q.Loses d
  · obtain ⟨herror, hnot, hnew⟩ := hloses
    rw [if_pos ⟨herror, hnot, hnew⟩]
    rw [← hstores] at hnot
    generalize q.push d = p at hpush hnot
    cases hpush with
    | repeated h => exact absurd h (by simpa using hnew)
    | suppressed => rfl
    | error | warning => exact absurd rfl hnot
  · rw [if_neg hloses]
    generalize q.push d = p at hpush hstores
    cases hpush with
    | suppressed hnew herror _ =>
        have hnot : ¬ q.Stores d := fun h => by simp [h] at hstores
        exact absurd ⟨herror, hnot, hnew⟩ hloses
    | repeated | error | warning => rfl

/-- What is counted as suppressed are the errors that were lost. -/
theorem suppressed_pushAll (q : Queue) (ds : List Diagnostic) :
    (q.pushAll ds).suppressed =
      q.suppressed + (q.meetings ds).countP fun (q, d) => decide (q.Loses d) := by
  induction ds generalizing q with
  | nil => rfl
  | cons d ds ih =>
      have hcons : q.pushAll (d :: ds) = (q.push d).1.pushAll ds := rfl
      rw [hcons, ih, suppressed_push, meetings, List.countP_cons]
      simp only [decide_eq_true_eq]
      omega

/-! ## the two queues -/

/-- A queue that was given reports since it was last emptied. -/
def ofReports (limit : Option Nat) (ds : List Diagnostic) : Queue := (empty limit).pushAll ds

/-- **A limited queue keeps a truncation of what an unlimited queue keeps.** Since it was last
emptied, a queue without a limit has kept the first occurrence of each report in order, and a queue
with one has kept of these all warnings and the first errors. Its counters tell how many errors it
has kept and how many it has lost, and each push tells whether it keeps the report. -/
theorem limited_truncates_unlimited (limit : Nat) (ds : List Diagnostic) :
    (∀ q : Queue, q.flush.1 = ofReports q.limit []) ∧
    (ofReports none ds).kept = firsts ds ∧
    ((ofReports (some limit) ds).kept.Sublist (firsts ds) ∧
      (ofReports (some limit) ds).kept.filter (fun d => !d.isError) =
        (firsts ds).filter (fun d => !d.isError) ∧
      (ofReports (some limit) ds).kept.filter (·.isError) =
        ((firsts ds).filter (·.isError)).take limit) ∧
    ((ofReports (some limit) ds).errorCount =
        (ofReports (some limit) ds).kept.countP (·.isError) ∧
      (ofReports (some limit) ds).errorCount ≤ limit) ∧
    (ofReports (some limit) ds).kept.Pairwise (fun d e => ¬ d.SameReport e) ∧
    ((ofReports (some limit) ds).isFull = true ↔ (ofReports (some limit) ds).errorCount = limit) ∧
    (ofReports (some limit) ds).suppressed =
      ((empty (some limit)).meetings ds).countP (fun (q, d) => decide (q.Loses d)) ∧
    ∀ (q : Queue) (d : Diagnostic), (q.push d).2 = true ↔ q.Stores d := by
  have htidy : (ofReports (some limit) ds).Tidy := (Tidy.empty (some limit)).pushAll ds
  have hlimit : (ofReports (some limit) ds).limit = some limit := limit_pushAll _ _
  have hkept : (ofReports (some limit) ds).kept = truncate limit (firsts ds) :=
    kept_limited limit ds
  refine ⟨fun _ => rfl, kept_unlimited ds, ⟨?_, ?_, ?_⟩,
    ⟨htidy.errorCount_eq, htidy.errorCount_le limit hlimit⟩, htidy.distinct,
    htidy.isFull_iff hlimit, ?_, push_snd_iff⟩
  · rw [hkept]
    exact truncate_sublist _ _
  · rw [hkept]
    exact warnings_truncate _ _
  · rw [hkept]
    exact errors_truncate _ _
  · rw [ofReports, suppressed_pushAll]
    exact Nat.zero_add _

end Queue

end DeriveKit
