import DeriveKit.Expansion.Report
import DeriveKit.Proofs.Generated
import DeriveKit.Proofs.Pushes
import Mathlib.Data.List.DropRight

/-!
# DeriveKit.Proofs.Reporting

What the word that an error was reported is worth. Over every run of operations on one queue, the
queue says that there was an error exactly if one was submitted since the queue was last emptied,
also if it was a repetition or there was no room for it (`Queue.accounts_of_run`), and emptying the
queue then shows an error (`Queue.exists_error_flush_iff`). A failing expansion submits one report,
that of its failure; any other expansion submits none (`Queue.settles_settle`).
-/

namespace DeriveKit

/-- What can be done with a queue. -/
inductive Operation
  | push (d : Diagnostic)
  | emit (d : Diagnostic) (herror : d.isError = true)
  | expandStructure (r : Registry) (file : String) (items : List (StructureItem Payload))
  | expandSignature (r : Registry) (file : String) (items : List (SignatureItem Payload))
  | flush

/-- A report tells of a failure: it is an error with the code, message and place of the failure. -/
structure Diagnostic.Tells (d : Diagnostic) (f : Failure) : Prop where
  isError : d.isError = true
  code_eq : d.code = f.cause.code
  message_eq : d.message = f.cause.message
  place_eq : d.place? = some f.span

/-- The report made of a failure tells its code, its message and its place. -/
theorem Failure.tells_diagnostic (f : Failure) : f.diagnostic.Tells f := ⟨rfl, rfl, rfl, rfl⟩

/-- The report that the failure of an outcome is submitted as. -/
def Outcome.reports {α : Type} : Outcome α → List Diagnostic
  | .error (.failure f) => [f.diagnostic]
  | _ => []

namespace Operation

/-- The queue after an operation. A type where none like it can be ends the work. -/
def perform (q : Queue) : Operation → Outcome Queue
  | push d => .ok (q.push d).1
  | emit d _ => .ok (q.emit d).1
  | expandStructure r file items => do return (← r.expandStructure q file items).1
  | expandSignature r file items => do return (← r.expandSignature q file items).1
  | flush => .ok q.flush.1

/-- The queue after operations in order. -/
def run (q : Queue) (ops : List Operation) : Outcome Queue := ops.foldlM perform q

/-- Whether an operation empties the queue. -/
def isFlush : Operation → Bool
  | flush => true
  | _ => false

/-- The reports that an operation submits, those that are not kept included. -/
def submits : Operation → List Diagnostic
  | push d | emit d _ => [d]
  | expandStructure r file items => (StructureItem.expandAll r (.ofFile file) items).reports
  | expandSignature r file items => (SignatureItem.expandAll r (.ofFile file) items).reports
  | flush => []

/-- The reports submitted since the queue was last emptied. -/
def submitted (ops : List Operation) : List Diagnostic :=
  (ops.rtakeWhile fun op => !op.isFlush).flatMap submits

end Operation

namespace Queue

variable {q q' : Queue}

/-! ## expansions -/

/-- What becomes of an expansion that is settled with a queue. -/
inductive Settles {α : Type} (q : Queue) :
    Outcome α → Outcome (Queue × Except Reported α) → Prop
  | expanded (a : α) : Settles q (.ok a) (.ok (q, .ok a))
  | failed {d : Diagnostic} {f : Failure} (h : d.Tells f) :
    Settles q (.error (.failure f)) (.ok ((q.push d).1, .error .reported))
  | breached {fault : Fault} (h : fault.breach?.isSome) : Settles q (.error fault) (.error fault)

/-- Settling an outcome submits the report of its failure, or nothing if it has none. -/
theorem settles_settle {α : Type} (q : Queue) (x : Outcome α) : Settles q x (q.settle x) := by
  cases x with
  | ok a => exact .expanded a
  | error fault =>
      cases fault with
      | failure f => exact .failed f.tells_diagnostic
      | parameter t => exact .breached rfl
      | freeVars t => exact .breached rfl

/-- Settling an expansion is submitting its reports. -/
theorem fst_settle {α : Type} {q q' : Queue} {x : Outcome α}
    (h : (do return (← q.settle x).1) = Except.ok (ε := Fault) q') : q' = q.pushAll x.reports := by
  cases x with
  | ok a => cases h; rfl
  | error fault =>
      cases fault with
      | failure f => cases h; rfl
      | parameter t => cases h
      | freeVars t => cases h

/-! ## one operation -/

/-- An operation empties the queue or adds to it what it submits. -/
theorem eq_of_perform {op : Operation} (h : op.perform q = .ok q') :
    q' = if op.isFlush then empty q.limit else q.pushAll op.submits := by
  cases op with
  | push d => cases h; rfl
  | emit d herror => cases h; rfl
  | expandStructure r file items => exact fst_settle h
  | expandSignature r file items => exact fst_settle h
  | flush => cases h; rfl

/-- The queue has counted an error exactly if one is among the reports. -/
def Accounts (q : Queue) (ds : List Diagnostic) : Prop :=
  0 < q.errorCount + q.suppressed ↔ ∃ d ∈ ds, d.isError = true

/-- An empty queue accounts for no reports. -/
theorem Accounts.empty (limit : Option Nat) : (empty limit).Accounts [] := by
  simp [Accounts, Queue.empty]

/-- A push accounts for its report. -/
theorem Accounts.push {ds : List Diagnostic} (h : q.Accounts ds) (htidy : q.Tidy)
    (d : Diagnostic) : (q.push d).1.Accounts (ds ++ [d]) := by
  have hpush := q.pushed_push d
  have hsplit : (∃ e ∈ ds ++ [d], e.isError = true) ↔
      (∃ e ∈ ds, e.isError = true) ∨ d.isError = true := by
    simp [or_and_right, exists_or]
  unfold Accounts at h ⊢
  rw [hsplit, ← h]
  generalize q.push d = p at hpush
  cases hpush with
  | repeated hknown =>
      -- a repeated error is counted already
      refine ⟨Or.inl, fun hor => hor.elim id fun herror => ?_⟩
      obtain ⟨e, he, hsame⟩ := hknown
      have hpos : 0 < q.kept.countP (·.isError) :=
        List.countP_pos_iff.2 ⟨e, he, hsame.isError_eq.trans herror⟩
      have hcount := htidy.errorCount_eq
      show 0 < q.errorCount + q.suppressed
      omega
  | suppressed _ herror _ =>
      refine iff_of_true ?_ (.inr herror)
      show 0 < q.errorCount + (q.suppressed + 1)
      omega
  | error _ herror _ =>
      refine iff_of_true ?_ (.inr herror)
      show 0 < q.errorCount + 1 + q.suppressed
      omega
  | warning _ hwarning => simp [hwarning]

/-- Submitting reports one after the other keeps the account. -/
theorem Accounts.pushAll {ds : List Diagnostic} (h : q.Accounts ds) (htidy : q.Tidy)
    (es : List Diagnostic) : (q.pushAll es).Accounts (ds ++ es) := by
  induction es generalizing q ds with
  | nil => simpa using h
  | cons e es ih =>
      have hcons : q.pushAll (e :: es) = (q.push e).1.pushAll es := rfl
      rw [hcons]
      simpa [List.append_assoc] using ih (h.push htidy e) (htidy.push e)

/-! ## runs -/

/-- The last operation of a run is performed on the queue that the others leave behind. -/
theorem run_concat (q : Queue) (ops : List Operation) (op : Operation) :
    Operation.run q (ops ++ [op]) = Operation.run q ops >>= fun q => op.perform q := by
  simp [Operation.run, List.foldlM_append]

/-- What has been submitted since the last flush, with one more operation. -/
theorem submitted_concat (ops : List Operation) (op : Operation) :
    Operation.submitted (ops ++ [op]) =
      if op.isFlush then [] else Operation.submitted ops ++ op.submits := by
  unfold Operation.submitted
  rw [List.rtakeWhile_concat]
  cases op.isFlush <;> simp

/-- After a run a queue is as if it had been given what was submitted since it was last emptied. -/
theorem eq_pushAll_of_run {limit : Option Nat} {ops : List Operation}
    (h : Operation.run (empty limit) ops = .ok q) :
    q = (empty limit).pushAll (Operation.submitted ops) := by
  induction ops using List.reverseRecOn generalizing q with
  | nil =>
      cases h
      rfl
  | append_singleton ops op ih =>
      rw [run_concat] at h
      obtain ⟨before, hbefore, hop⟩ := Outcome.bind_eq_ok_iff.1 h
      rw [eq_of_perform hop, submitted_concat, ih hbefore]
      cases op.isFlush with
      | true =>
          rw [if_pos rfl, if_pos rfl, limit_pushAll]
          rfl
      | false => simp [pushAll_append]

/-- A run leaves a queue in order, and accounts for what was submitted since it was emptied. -/
theorem accounts_of_run {limit : Option Nat} {ops : List Operation}
    (h : Operation.run (empty limit) ops = .ok q) :
    q.Tidy ∧ q.Accounts (Operation.submitted ops) := by
  have htidy := Tidy.empty limit
  rw [eq_pushAll_of_run h]
  refine ⟨htidy.pushAll _, ?_⟩
  simpa using (Accounts.empty limit).pushAll htidy (Operation.submitted ops)

/-! ## the word -/

/-- A queue says that there was an error if it keeps one or has suppressed one. -/
theorem isSome_errors?_iff : q.errors?.isSome ↔ 0 < q.errorCount + q.suppressed := by
  unfold errors?
  split <;> simp [*]

/-- Emptying a queue shows an error exactly if one was counted. -/
theorem exists_error_flush_iff (h : q.Tidy) :
    (∃ d ∈ q.flush.2, d.isError = true) ↔ 0 < q.errorCount + q.suppressed := by
  have hkept : (∃ d ∈ q.kept, d.isError = true) ↔ 0 < q.errorCount := by
    rw [h.errorCount_eq, List.countP_pos_iff]
  have hsummary : (∃ d ∈ if 0 < q.suppressed then [summary q.suppressed] else [],
      d.isError = true) ↔ 0 < q.suppressed := by
    by_cases hpos : 0 < q.suppressed
    · simp only [hpos, if_true, List.mem_singleton, exists_eq_left, iff_true]
      rfl
    · simp [hpos]
  have hflush : (∃ d ∈ q.flush.2, d.isError = true) ↔ 0 < q.errorCount ∨ 0 < q.suppressed := by
    rw [← hkept, ← hsummary]
    simp only [flush, List.mem_append, List.mem_mergeSort, or_and_right, exists_or]
  rw [hflush]
  omega

/-- **The word is sound.** Whatever was done with a queue, an expansion that succeeds leaves it as
it is, one that fails submits one report of its failure, and the queue says that there was an error
exactly if one was submitted since it was last emptied; emptying it shows an error exactly then. -/
theorem reported_sound {limit : Option Nat} {ops : List Operation}
    (h : Operation.run (empty limit) ops = .ok q) :
    (∀ (r : Registry) (file : String) (items : List (StructureItem Payload)),
      Settles q (StructureItem.expandAll r (.ofFile file) items)
        (r.expandStructure q file items)) ∧
    (∀ (r : Registry) (file : String) (items : List (SignatureItem Payload)),
      Settles q (SignatureItem.expandAll r (.ofFile file) items)
        (r.expandSignature q file items)) ∧
    (q.errors?.isSome ↔ ∃ d ∈ Operation.submitted ops, d.isError = true) ∧
    ((∃ d ∈ q.flush.2, d.isError = true) ↔ q.errors?.isSome) := by
  obtain ⟨htidy, haccounts⟩ := accounts_of_run h
  refine ⟨fun r file items => settles_settle q _, fun r file items => settles_settle q _, ?_, ?_⟩
  · rw [isSome_errors?_iff]
    exact haccounts
  · rw [isSome_errors?_iff]
    exact exists_error_flush_iff htidy

/-- An error that is shown, then a group that cannot be expanded, twice. -/
def refusedTwice : List Operation :=
  let expand := .expandStructure echoRegistry "lib.ml"
    [.types .nonrecursive [annotatedDecl "t"] ⟨11, 21⟩]
  [.push (.ofCode .error .generatorError), .flush, expand, expand]

/-- A queue without room for errors says that there was one, and shows one. -/
theorem reported_sound_refusedTwice :
    Operation.run (empty (some 0)) refusedTwice = .ok ⟨some 0, [], 0, 2⟩ ∧
    ((∃ d ∈ (flush ⟨some 0, [], 0, 2⟩).2, d.isError = true) ↔
      (errors? ⟨some 0, [], 0, 2⟩).isSome) :=
  have hrun : Operation.run (empty (some 0)) refusedTwice = .ok ⟨some 0, [], 0, 2⟩ := rfl
  ⟨hrun, (reported_sound hrun).2.2.2⟩

end Queue

end DeriveKit
