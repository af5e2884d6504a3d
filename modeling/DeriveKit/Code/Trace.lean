import DeriveKit.Code.Visit
import DeriveKit.Text.Payload

/-!
# DeriveKit.Code.Trace

A record of a traversal: what it meets (`Event`), in order, and where it was made to stop. The
traversal is an ordinary visitor in a monad that keeps the record (`Visitor.tracing`), so what is
recorded is what every visitor meets.
-/

namespace DeriveKit

/-- What a traversal meets. -/
inductive Event (π : Type)
  | expr (e : Expr π)
  | binding (b : Binding π)
  | case (c : Case π)

/-- The event as a line of text: binding and case are known by their pattern. -/
def Event.text : Event Payload → String
  | .expr e => "expr " ++ e.text
  | .binding b => "binding " ++ b.pattern.text
  | .case c => "case " ++ c.pattern.text

variable {π : Type}

/-- A traversal that keeps what it has met, the last first, and may stop at an expression. -/
abbrev Tracing (π : Type) := ExceptT (Expr π) (StateM (List (Event π)))

/-- Keeps an event. -/
def Event.note (event : Event π) : Tracing π Unit := modify (event :: ·)

/-- A visitor that notes everything, stops at expressions of one kind, and goes round the inside of
those of another. -/
def Visitor.tracing (stop skip : Expr π → Bool) : Visitor (Tracing π) π where
  expr e := do
    Event.note (.expr e)
    if stop e then throw e
    return if skip e then some e else none
  binding b := Event.note (.binding b)
  case c := Event.note (.case c)

/-- What a traversal meets in order, and the expression that it stops at, if it does. -/
def Expr.trace (stop skip : Expr π → Bool) (e : Expr π) : List (Event π) × Option (Expr π) :=
  match ((e.visit (.tracing stop skip)).run).run [] with
  | (.ok _, events) => (events.reverse, none)
  | (.error stopped, events) => (events.reverse, some stopped)

end DeriveKit
