import DeriveKit.Diagnostic.Basic

/-!
# DeriveKit.Diagnostic.Queue

Problems on their way to the user. A `Queue` keeps each report once. It may keep a limited number of
errors only; the others are counted, and told of in one report at the end (`Queue.flush`). Whether a
report was there before is looked up among those that are kept (`Queue.isKnown`), before the limit
is.
-/

namespace DeriveKit

/-- The reports kept so far, the first one first, how many errors were counted in, and how many
were not kept for want of room. Without a `limit` there is always room. -/
structure Queue where
  limit : Option Nat
  kept : List Diagnostic
  errorCount : Nat
  suppressed : Nat
deriving DecidableEq, Repr

/-- A word that some error was reported. -/
inductive Reported
  | reported
deriving DecidableEq, Repr

/-- What a caller is told who gets no result. -/
def Reported.text : Reported → String
  | .reported => "deriving failed; see diagnostics"

namespace Queue

/-- The number of errors kept unless something else is said. -/
def defaultLimit : Option Nat := some 10

/-- A queue with nothing in it. -/
def empty (limit : Option Nat) : Queue := ⟨limit, [], 0, 0⟩

/-- Whether there is no room for another error. -/
def isFull (q : Queue) : Bool :=
  match q.limit with
  | none => false
  | some limit => limit ≤ q.errorCount

/-- Whether the problem is among those kept. -/
def isKnown (q : Queue) (d : Diagnostic) : Bool := q.kept.any fun e => e.isSameReport d

/-- Adds a report: the queue with it, and whether it is kept. -/
def push (q : Queue) (d : Diagnostic) : Queue × Bool :=
  if q.isKnown d then (q, false)
  else if d.isError then
    if q.isFull then ({ q with suppressed := q.suppressed + 1 }, false)
    else ({ q with kept := q.kept ++ [d], errorCount := q.errorCount + 1 }, true)
  else ({ q with kept := q.kept ++ [d] }, true)

/-- What becomes of a queue and a report added to it: the report is a repetition, there is no room
for it, or it is kept. -/
inductive Pushed (q : Queue) (d : Diagnostic) : Queue × Bool → Prop
  | repeated (h : ∃ e ∈ q.kept, e.SameReport d) : Pushed q d (q, false)
  | suppressed (hnew : ∀ e ∈ q.kept, ¬ e.SameReport d) (herror : d.isError = true)
    (hfull : q.isFull = true) : Pushed q d ({ q with suppressed := q.suppressed + 1 }, false)
  | error (hnew : ∀ e ∈ q.kept, ¬ e.SameReport d) (herror : d.isError = true)
    (hroom : q.isFull = false) :
    Pushed q d ({ q with kept := q.kept ++ [d], errorCount := q.errorCount + 1 }, true)
  | warning (hnew : ∀ e ∈ q.kept, ¬ e.SameReport d) (hwarning : d.isError = false) :
    Pushed q d ({ q with kept := q.kept ++ [d] }, true)

/-- A report is known if the same one is kept already; what was suppressed is not looked at. -/
theorem isKnown_iff {q : Queue} {d : Diagnostic} :
    q.isKnown d = true ↔ ∃ e ∈ q.kept, e.SameReport d := by
  simp [isKnown, Diagnostic.isSameReport_iff]

/-- One of these becomes of every report. -/
theorem pushed_push (q : Queue) (d : Diagnostic) : Pushed q d (q.push d) := by
  unfold push
  by_cases hknown : q.isKnown d = true
  · rw [if_pos hknown]
    exact .repeated (isKnown_iff.1 hknown)
  · have hnew : ∀ e ∈ q.kept, ¬ e.SameReport d := fun e he hsame =>
      hknown (isKnown_iff.2 ⟨e, he, hsame⟩)
    rw [if_neg hknown]
    cases herror : d.isError with
    | false => exact .warning hnew herror
    | true =>
        cases hfull : q.isFull with
        | false => exact .error hnew herror hfull
        | true => exact .suppressed hnew herror hfull

/-- Adds a report of an error. It counts as reported even if it is not kept. -/
def emit (q : Queue) (d : Diagnostic) : Queue × Reported := ((q.push d).1, .reported)

/-- Whether an error was reported since the queue was emptied. -/
def errors? (q : Queue) : Option Reported :=
  if 0 < q.errorCount + q.suppressed then some .reported else none

/-- Whether nothing was reported since the queue was emptied. -/
def isEmpty (q : Queue) : Bool := q.kept.isEmpty && q.suppressed == 0

/-- Whether a report comes before another one in the source. Those without a place come first. -/
def comesBefore (d e : Diagnostic) : Bool :=
  match d.place?, e.place? with
  | none, _ => true
  | some _, none => false
  | some s, some t => s.start < t.start || (s.start == t.start && s.stop ≤ t.stop)

/-- The report of how many errors were not kept. -/
def summary (count : Nat) : Diagnostic :=
  (Diagnostic.error .suppressed (toString count ++ " further deriving " ++
    (if count = 1 then "error" else "errors") ++ " suppressed")).hint
    "fix the errors above, or raise `DiagnosticConfig::error_limit`"

/-- Empties the queue: what is left of it, and the reports in the order of the source. -/
def flush (q : Queue) : Queue × List Diagnostic :=
  (empty q.limit, q.kept.mergeSort comesBefore ++
    if 0 < q.suppressed then [summary q.suppressed] else [])

end Queue

end DeriveKit
