import DeriveKit.Argument.Attribute

/-!
# DeriveKit.Code.Quoter

Putting expressions that the user wrote into generated code. Generated code opens a module of its
own; what the user wrote must not see that module. So each quoted expression becomes the body of a
function of the unit value, which is bound outside the opening and called inside it.
-/

namespace DeriveKit

/-- The module that generated code opens, how many expressions have been quoted, and for each of
them, in order, the name it was given and the function that the name will be bound to. -/
structure Quoter where
  runtime : QualName
  next : Nat
  quoted : List (String × Expr Payload)

namespace Quoter

/-- The module opened around generated code unless another one is given. -/
def defaultRuntime : QualName := .simple "Deriving_runtime"

/-- A quoter that has quoted nothing. -/
def empty (runtime : QualName) : Quoter := ⟨runtime, 0, []⟩

/-- The name given to the quoted expression with the given number. -/
def thunkName (n : Nat) : String := "__" ++ toString n

/-- The function of the unit value that computes a quoted expression. -/
def thunk (e : Expr Payload) : Expr Payload := .lambda (.unit e.span) e e.span

/-- The call of a function of the unit value by its name. -/
def call (name : String) (span : Span) : Expr Payload := .apply (.var name span) [.unit span] span

/-- Quotes an expression: the quoter with it, and the call that stands for it. -/
def quote (q : Quoter) (e : Expr Payload) : Quoter × Expr Payload :=
  let name := thunkName q.next
  ({ q with next := q.next + 1, quoted := q.quoted ++ [(name, thunk e)] }, call name e.span)

/-- Quotes expressions one after the other. -/
def quoteAll (q : Quoter) : List (Expr Payload) → Quoter × List (Expr Payload)
  | [] => (q, [])
  | e :: rest =>
      let (q, call) := q.quote e
      let (q, calls) := q.quoteAll rest
      (q, call :: calls)

/-- The binding of a name to a function, in generated code at the given place. -/
def binding (span : Span) (name : String) (function : Expr Payload) : Binding Payload :=
  .bare (.var name function.span) function span

/-- Generated code inside the opening of a module, without warnings from it or from the opening. -/
def opened (module : QualName) (body : Expr Payload) : Expr Payload :=
  let silent := Attribute.warnings "-A" body.span
  let decl : OpenDecl Payload := ⟨⟨module, body.span⟩, true, [silent], body.span⟩
  (Expr.openIn decl body body.span).withAttributes [silent]

/-- Generated code inside the opening of `module`, with the quoted expressions bound outside. -/
def wrapIn (q : Quoter) (module : QualName) (body : Expr Payload) : Expr Payload :=
  if q.quoted.isEmpty then opened module body
  else
    .letIn .nonrecursive (q.quoted.map fun (name, function) => binding body.span name function)
      (opened module body) body.span

/-- Generated code inside the opening of the quoter's own module. -/
def wrap (q : Quoter) (body : Expr Payload) : Expr Payload := q.wrapIn q.runtime body

/-- Code that is generated with a new quoter. -/
def wrapGenerated (generate : Quoter → Quoter × Expr Payload) : Expr Payload :=
  let (q, body) := generate (empty defaultRuntime)
  q.wrap body

end Quoter

end DeriveKit
