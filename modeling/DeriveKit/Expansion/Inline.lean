import DeriveKit.Annotation.Resolve
import DeriveKit.Code.Visit

/-!
# DeriveKit.Expansion.Inline

Placeholders in expressions: extension nodes that name a generator and hold a type, and stand for
what the generator makes of the type. `Registry.fillAll` fills them all or fails with the first
fault. What a generator makes is not searched for placeholders again.
-/

namespace DeriveKit

/-- The name of the generator that an extension node asks for, if it is a placeholder. -/
def placeholderName? (name : String) : Option String :=
  match name.toList with
  | 'd' :: 'e' :: 'r' :: 'i' :: 'v' :: 'e' :: '.' :: c :: rest => some (String.ofList (c :: rest))
  | _ => none

/-- What stands in the place of an expression, if it is a placeholder. -/
def Registry.fill? (r : Registry) (e : Expr Payload) : Outcome (Option (Expr Payload)) :=
  match e.shape with
  | .extension ext =>
      match placeholderName? ext.name.value with
      | some name => return some (← r.inline name ext.payload e.span)
      | none => .ok none
  | _ => .ok none

/-- The expression with its placeholders filled. -/
def Registry.fillAll (r : Registry) (e : Expr Payload) : Outcome (Expr Payload) :=
  e.visit (.ofExpr r.fill?)

/-- Bindings with the placeholders in their expressions filled. -/
def Registry.fillBindings (r : Registry) (bindings : List (Binding Payload)) :
    Outcome (List (Binding Payload)) :=
  Binding.visitAll (.ofExpr r.fill?) bindings

/-- What stands in the place of an expression, if it is a placeholder. A fault is noted, and once
there is one every expression stays as it is. -/
def Registry.fillOrNote (r : Registry) (e : Expr Payload) :
    StateM (Option Fault) (Option (Expr Payload)) := do
  if (← get).isSome then return some e
  match r.fill? e with
  | .ok filled => return filled
  | .error fault =>
      set (some fault)
      return some e

/-- Fills placeholders until the first fault, and leaves the rest of the expression as it is. -/
def Registry.fillUntilFault (r : Registry) (e : Expr Payload) : Expr Payload × Option Fault :=
  (e.visit (.ofExpr r.fillOrNote)).run none

end DeriveKit
