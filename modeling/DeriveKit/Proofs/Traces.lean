import DeriveKit.Proofs.Positions

/-!
# DeriveKit.Proofs.Traces

What a recorded traversal shows. It meets what has a position in the expression, in the order of the
positions, and leaves out what is inside an expression that it goes round; where it has to stop it
has met just what comes before (`Expr.halts_trace`). So stopping shows a prefix of the full
traversal and going round shows a part of it (`Expr.traces_show_parts`).
-/

namespace DeriveKit

variable {π α β : Type} {stop skip : Expr π → Bool}

/-! ## stopping -/

/-- How far a traversal gets that would meet some events and has to stop at expressions of a kind:
what it meets, and the expression at which it stops, if there is one. -/
inductive Event.Halts (stop : Expr π → Bool) :
    List (Event π) → List (Event π) → Option (Expr π) → Prop
  | through {events : List (Event π)} (h : ∀ e, .expr e ∈ events → stop e = false) :
    Halts stop events events none
  | early {before : List (Event π)} {e : Expr π} (h : ∀ e, .expr e ∈ before → stop e = false)
    (hstop : stop e = true) (after : List (Event π)) :
    Halts stop (before ++ .expr e :: after) (before ++ [.expr e]) (some e)

namespace Event.Halts

variable {events events' met met' : List (Event π)} {e : Expr π} {stopped : Option (Expr π)}

/-- Where there is nothing to meet, nothing stops the traversal. -/
theorem nil : Halts stop [] [] none := .through nofun

/-- A traversal that has stopped meets no more. -/
theorem append_of_stopped (h : Halts stop events met (some e)) (rest : List (Event π)) :
    Halts stop (events ++ rest) met (some e) := by
  cases h with
  | early h hstop after =>
      rw [List.append_assoc, List.cons_append]
      exact .early h hstop (after ++ rest)

/-- A traversal that has not stopped goes on. -/
theorem append (h : Halts stop events met none) (h' : Halts stop events' met' stopped) :
    Halts stop (events ++ events') (met ++ met') stopped := by
  have hnone {l l' : List (Event π)} (h : ∀ e, .expr e ∈ l → stop e = false)
      (h' : ∀ e, .expr e ∈ l' → stop e = false) : ∀ e, .expr e ∈ l ++ l' → stop e = false :=
    fun e he => (List.mem_append.1 he).elim (h e) (h' e)
  cases h with
  | through h =>
      cases h' with
      | through h' => exact .through (hnone h h')
      | early h' hstop after =>
          rw [← List.append_assoc, ← List.append_assoc]
          exact .early (hnone h h') hstop after

/-- A traversal that never has to stop meets everything. -/
theorem eq_of_never (h : Halts (fun _ => false) events met stopped) :
    met = events ∧ stopped = none := by
  cases h with
  | through => exact ⟨rfl, rfl⟩
  | early _ hstop => cases hstop

end Event.Halts

/-! ## recording -/

namespace Tracing

/-- What comes of a step that stops or has the result `a`. -/
def outcome (a : α) : Option (Expr π) → Except (Expr π) α
  | none => .ok a
  | some e => .error e

/-- A step that has the result `a`, and records the given events on its way unless it has to stop at
one of them. -/
def Records (stop : Expr π → Bool) (x : Tracing π α) (a : α) (events : List (Event π)) : Prop :=
  ∃ met stopped, Event.Halts stop events met stopped ∧
    ∀ log, x.run.run log = (outcome a stopped, met.reverse ++ log)

/-- A step that stops is not gone on from, but what it has recorded stays. -/
theorem run_bind (x : Tracing π α) (f : α → Tracing π β) (log : List (Event π)) :
    (x >>= f).run.run log =
      match x.run.run log with
      | (.ok a, log) => (f a).run.run log
      | (.error e, log) => (.error e, log) := by
  show (match x.run.run log with | (a, log) => (ExceptT.bindCont f a).run log) = _
  obtain ⟨a | a, log'⟩ := x.run.run log <;> rfl

namespace Records

variable {x : Tracing π α} {a : α} {events : List (Event π)}

/-- A computation that visits nothing records nothing. -/
theorem pure (a : α) : Records stop (Pure.pure a : Tracing π α) a [] :=
  ⟨[], none, .nil, fun _ => rfl⟩

/-- What two computations in a row record is put together; a halt in the first is a halt of both. -/
theorem bind {f : α → Tracing π β} {b : β} {events' : List (Event π)}
    (h : Records stop x a events) (h' : Records stop (f a) b events') :
    Records stop (x >>= f) b (events ++ events') := by
  obtain ⟨met, stopped, hhalts, hx⟩ := h
  cases stopped with
  | some e =>
      refine ⟨met, some e, hhalts.append_of_stopped events', fun log => ?_⟩
      rw [run_bind, hx]
      rfl
  | none =>
      obtain ⟨met', stopped', hhalts', hf⟩ := h'
      refine ⟨met ++ met', stopped', hhalts.append hhalts', fun log => ?_⟩
      rw [run_bind, hx, List.reverse_append, List.append_assoc]
      exact hf (met.reverse ++ log)

/-- A step followed by what only changes its result. -/
theorem map (h : Records stop x a events) (f : α → β) :
    Records stop (x >>= fun a => Pure.pure (f a)) (f a) events := by
  have hbind : Records stop (x >>= fun a => Pure.pure (f a)) (f a) (events ++ []) :=
    h.bind (.pure (f a))
  rwa [List.append_nil] at hbind

end Records

/-- The visitor records an expression, and then stops or says whether to go round its inside. -/
theorem records_expr (stop skip : Expr π → Bool) (e : Expr π) :
    Records stop ((Visitor.tracing stop skip).expr e) (if skip e then some e else none)
      [.expr e] := by
  cases hstop : stop e with
  | true =>
      have hhalts : Event.Halts stop ([] ++ [.expr e]) ([] ++ [.expr e]) (some e) :=
        .early (fun _ h => absurd h List.not_mem_nil) hstop []
      refine ⟨[.expr e], some e, hhalts, fun log => ?_⟩
      simp only [Visitor.tracing, hstop]
      rfl
  | false =>
      refine ⟨[.expr e], none, .through fun e' he => ?_, fun log => ?_⟩
      · cases List.mem_singleton.1 he
        exact hstop
      · simp only [Visitor.tracing, hstop]
        rfl

/-- Bindings and cases are recorded and do not stop a traversal. -/
theorem records_note (event : Event π) (h : ∀ e, event ≠ .expr e) :
    Records stop event.note () [event] :=
  ⟨[event], none, .through fun e he => absurd (List.mem_singleton.1 he).symm (h e), fun _ => rfl⟩

end Tracing

/-! ## visiting -/

/-- What a traversal meets that goes round the inside of some expressions. -/
def Event.shown (skip : Expr π → Bool) (x : Event π) : List (Event π) := (x.listing skip).map (·.2)

/-- An event shows itself, and then its parts unless it is gone round. -/
theorem Event.shown_eq (skip : Expr π → Bool) (x : Event π) :
    x.shown skip = x :: if x.isSkipped skip then [] else x.parts.flatMap (shown skip) := by
  rw [shown, listing_eq]
  split
  · rfl
  · rw [List.map_cons, map_snd_numbered, List.flatMap_map]
    rfl

open Tracing

variable (stop skip : Expr π → Bool)

mutual

/-- A recorded traversal of an expression meets what is in its listing. -/
theorem Expr.records_visit : (e : Expr π) →
    Records stop (e.visit (.tracing stop skip)) e ((Event.expr e).shown skip)
  | ⟨shape, span, attributes⟩ => by
      rw [Expr.visit, Event.shown_eq]
      refine (records_expr stop skip _).bind ?_
      show Records stop _ _ (if skip _ then [] else shape.events.flatMap (Event.shown skip))
      cases skip ⟨shape, span, attributes⟩ with
      | true =>
          simp only [if_true]
          exact .pure _
      | false =>
          simp only [Bool.false_eq_true, if_false]
          exact (ExprShape.records_visit shape).map fun shape =>
            (⟨shape, span, attributes⟩ : Expr π)

/-- Visiting a shape meets what its positions show, in their order. -/
theorem ExprShape.records_visit : (s : ExprShape π) →
    Records stop (s.visit (.tracing stop skip)) s (s.events.flatMap (Event.shown skip))
  | .ident _ | .constant _ | .extension _ => .pure _
  | .letIn _ bindings body => by
      rw [ExprShape.visit, ExprShape.events, List.flatMap_append, List.flatMap_singleton]
      exact (Binding.records_visitAll bindings).bind ((Expr.records_visit body).map _)
  | .function cases => by
      rw [ExprShape.visit, ExprShape.events]
      exact (Case.records_visitAll cases).map _
  | .lambda _ default _ body => by
      rw [ExprShape.visit, ExprShape.events, List.flatMap_append, List.flatMap_singleton]
      exact (Expr.records_visitOption default).bind ((Expr.records_visit body).map _)
  | .apply callee args => by
      rw [ExprShape.visit, ExprShape.events, List.flatMap_cons]
      exact (Expr.records_visit callee).bind ((Expr.records_visitArgs args).map _)
  | .matchWith scrutinee cases => by
      rw [ExprShape.visit, ExprShape.events, List.flatMap_cons]
      exact (Expr.records_visit scrutinee).bind ((Case.records_visitAll cases).map _)
  | .tuple elements => by
      rw [ExprShape.visit, ExprShape.events]
      exact (Expr.records_visitAll elements).map _
  | .construct _ arg | .variant _ arg => by
      rw [ExprShape.visit, ExprShape.events]
      exact (Expr.records_visitOption arg).map _
  | .record fields base => by
      rw [ExprShape.visit, ExprShape.events, List.flatMap_append]
      exact (Expr.records_visitOption base).bind ((Expr.records_visitFields fields).map _)
  | .field e _ | .constraint e _ | .openIn _ e => by
      rw [ExprShape.visit, ExprShape.events, List.flatMap_singleton]
      exact (Expr.records_visit e).map _
  | .ifThenElse condition onTrue onFalse => by
      rw [ExprShape.visit, ExprShape.events, List.flatMap_cons, List.flatMap_cons]
      exact (Expr.records_visit condition).bind
        ((Expr.records_visit onTrue).bind ((Expr.records_visitOption onFalse).map _))
  | .sequence first second => by
      rw [ExprShape.visit, ExprShape.events, List.flatMap_cons, List.flatMap_singleton]
      exact (Expr.records_visit first).bind ((Expr.records_visit second).map _)

theorem Expr.records_visitOption : (e : Option (Expr π)) →
    Records stop (Expr.visitOption (.tracing stop skip) e) e
      ((e.toList.map .expr).flatMap (Event.shown skip))
  | none => .pure none
  | some e => by
      rw [Expr.visitOption, Option.toList_some, List.map_singleton, List.flatMap_singleton]
      exact (Expr.records_visit e).map _

/-- Visiting expressions in a row meets them in that order. -/
theorem Expr.records_visitAll : (es : List (Expr π)) →
    Records stop (Expr.visitAll (.tracing stop skip) es) es
      ((es.map .expr).flatMap (Event.shown skip))
  | [] => .pure []
  | e :: rest => by
      rw [Expr.visitAll, List.map_cons, List.flatMap_cons]
      exact (Expr.records_visit e).bind ((Expr.records_visitAll rest).map _)

theorem Expr.records_visitArgs : (args : List (ArgLabel × Expr π)) →
    Records stop (Expr.visitArgs (.tracing stop skip) args) args
      ((args.map fun arg => .expr arg.2).flatMap (Event.shown skip))
  | [] => .pure []
  | (_, e) :: rest => by
      rw [Expr.visitArgs, List.map_cons, List.flatMap_cons]
      exact (Expr.records_visit e).bind ((Expr.records_visitArgs rest).map _)

theorem Expr.records_visitFields : (fields : List (Located QualName × Expr π)) →
    Records stop (Expr.visitFields (.tracing stop skip) fields) fields
      ((fields.map fun field => .expr field.2).flatMap (Event.shown skip))
  | [] => .pure []
  | (_, e) :: rest => by
      rw [Expr.visitFields, List.map_cons, List.flatMap_cons]
      exact (Expr.records_visit e).bind ((Expr.records_visitFields rest).map _)

/-- Visiting cases in a row meets them in that order. -/
theorem Case.records_visitAll : (cases : List (Case π)) →
    Records stop (Case.visitAll (.tracing stop skip) cases) cases
      ((cases.map .case).flatMap (Event.shown skip))
  | [] => .pure []
  | ⟨pattern, guard, body⟩ :: rest => by
      have hparts : (Event.case ⟨pattern, guard, body⟩).parts =
          guard.toList.map .expr ++ [.expr body] := by
        simp [Event.parts, Case.parts]
      rw [Case.visitAll, List.map_cons, List.flatMap_cons, Event.shown_eq, hparts,
        List.flatMap_append, List.flatMap_singleton, List.cons_append]
      refine (records_note (.case ⟨pattern, guard, body⟩) nofun).bind ?_
      show Records stop _ _ ((_ ++ _) ++ _)
      rw [List.append_assoc]
      exact (Expr.records_visitOption guard).bind
        ((Expr.records_visit body).bind ((Case.records_visitAll rest).map _))

/-- Visiting bindings in a row meets them in that order. -/
theorem Binding.records_visitAll : (bindings : List (Binding π)) →
    Records stop (Binding.visitAll (.tracing stop skip) bindings) bindings
      ((bindings.map .binding).flatMap (Event.shown skip))
  | [] => .pure []
  | ⟨pattern, expr, attributes, span⟩ :: rest => by
      rw [Binding.visitAll, List.map_cons, List.flatMap_cons, Event.shown_eq, List.cons_append]
      refine (records_note (.binding ⟨pattern, expr, attributes, span⟩) nofun).bind ?_
      show Records stop _ _ ([Event.expr expr].flatMap _ ++ _)
      rw [List.flatMap_singleton]
      exact (Expr.records_visit expr).bind ((Binding.records_visitAll rest).map _)

end

/-- **Stopping shows a prefix.** A traversal that stops at expressions of a kind meets what one
meets that does not stop, up to the first such expression. -/
theorem Expr.halts_trace (e : Expr π) :
    Event.Halts stop ((Event.expr e).shown skip) (e.trace stop skip).1 (e.trace stop skip).2 := by
  obtain ⟨met, stopped, hhalts, hrun⟩ := Expr.records_visit stop skip e
  have htrace : e.trace stop skip = (met, stopped) := by
    rw [Expr.trace, hrun, List.append_nil]
    cases stopped <;> simp [outcome]
  rw [htrace]
  exact hhalts

/-- A traversal that never stops meets all but what is inside the expressions that it goes round. -/
theorem Expr.trace_never (e : Expr π) :
    e.trace (fun _ => false) skip = ((Event.expr e).shown skip, none) := by
  obtain ⟨hmet, hstopped⟩ := (e.halts_trace (fun _ => false) skip).eq_of_never
  exact Prod.ext hmet hstopped

/-- **Stopping or going round shows a prefix or a part of the full traversal.** Let `full` be all
positions in the expression in their order, parents before children and siblings in the order of
the source; the expressions in expression positions all have one. The full traversal meets just
`full`. One that stops at expressions of a kind meets the prefix of `full` that ends with the first
of them, and stops there; it does not stop if there is none. One that goes round expressions of a
kind meets what has a position in `full` that is not strictly inside one of them. -/
theorem Expr.traces_show_parts (e : Expr π) :
    let never : Expr π → Bool := fun _ => false
    let full := (Event.expr e).listing never
    (full.Pairwise (fun m m' => m.1 < m'.1) ∧
      (∀ path x, (path, x) ∈ full ↔ (Event.expr e).At path x) ∧
      (∀ p : Expr π, p.Within e ↔ ∃ path, (path, .expr p) ∈ full)) ∧
    e.trace never never = (full.map (·.2), none) ∧
    (∀ stop, Event.Halts stop (full.map (·.2)) (e.trace stop never).1 (e.trace stop never).2) ∧
    ∀ skip, e.trace never skip =
      ((full.filter fun m => ¬ (Event.expr e).Hidden skip m.1).map (·.2), none) := by
  intro never full
  have hmem (path : List Nat) (x : Event π) : (path, x) ∈ full ↔ (Event.expr e).At path x := by
    simp [full, never, Event.mem_listing_iff, Event.Hidden]
  refine ⟨⟨Event.pairwise_listing never _, hmem, fun p => ?_⟩, e.trace_never never,
    fun stop => e.halts_trace stop never, fun skip => ?_⟩
  · simp only [hmem, Event.within_iff_exists_at]
  · rw [Expr.trace_never, Event.shown, Event.listing_eq_filter]

end DeriveKit
