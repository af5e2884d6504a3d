import DeriveKit.Proofs.Parts

/-!
# DeriveKit.Proofs.Scope

What gives names a meaning inside an expression. The frames around a place are the names bound and
the modules opened between it and the outside, the innermost first (`Expr.place?`); an unqualified
name means what the first frame that gives it says, and what it means outside if there is none
(`Scope.lookup`). Only binders and openings add frames: the parts of any other form stand in the
scope of the whole, and `scopedParts_map_snd` says that no part is left out.
-/

namespace DeriveKit

variable {π : Type}

/-! ## names that a pattern binds -/

mutual

/-- The names that a pattern binds, from left to right. -/
def Pattern.names : Pattern π → List String
  | ⟨shape, _, _⟩ => shape.names

/-- The names that a form of pattern binds. -/
def PatternShape.names : PatternShape π → List String
  | .any | .constant _ | .construct _ none | .variant _ none => []
  | .var name => [name.value]
  | .aliased pattern name => pattern.names ++ [name.value]
  | .tuple elements => Pattern.namesAll elements
  | .construct _ (some arg) | .variant _ (some arg) => arg.names
  | .record fields _ => Pattern.namesFields fields
  | .either left right => left.names ++ right.names
  | .constraint pattern _ => pattern.names

/-- The names that patterns bind. -/
def Pattern.namesAll : List (Pattern π) → List String
  | [] => []
  | p :: rest => p.names ++ Pattern.namesAll rest

/-- The names that the fields of a record pattern bind. -/
def Pattern.namesFields : List (Located QualName × Pattern π) → List String
  | [] => []
  | (_, p) :: rest => p.names ++ Pattern.namesFields rest

end

/-! ## frames -/

/-- Something around a place that gives names a meaning there. -/
inductive Frame (π : Type)
  | bound (name : String) (binding : Binding π)
  | matched (name : String) (pattern : Pattern π)
  | opened (module : QualName)

/-- The frames around a place, the innermost first. -/
abbrev Scope (π : Type) := List (Frame π)

/-- Whether a frame gives `name` a meaning, if `exports` says which names modules have. -/
def Frame.gives (exports : QualName → String → Bool) (name : String) : Frame π → Bool
  | .bound other _ | .matched other _ => other == name
  | .opened module => exports module name

/-- The frame that says what an unqualified name means; `none` if the name means what it does
outside. -/
def Scope.lookup (exports : QualName → String → Bool) (scope : Scope π) (name : String) :
    Option (Frame π) :=
  scope.find? (Frame.gives exports name)

/-- The frames that a pattern adds to what it binds names in. -/
def Pattern.frames (p : Pattern π) : Scope π := p.names.map (.matched · p)

/-- The frames that a group of bindings adds to what it binds names in. -/
def Binding.frames (bindings : List (Binding π)) : Scope π :=
  bindings.flatMap fun b => b.pattern.names.map (.bound · b)

/-! ## places -/

/-- The parts of a case, each with the frames that the case adds to it. -/
def Case.scopedParts (c : Case π) : List (Scope π × Expr π) :=
  c.parts.map fun e => (c.pattern.frames, e)

/-- The expressions directly inside a form of expression, each with the frames that the form adds
to it. A group of bindings is in its own scope only if it is recursive, and the default of a
parameter is never in the scope of the parameter. -/
def ExprShape.scopedParts : ExprShape π → List (Scope π × Expr π)
  | .letIn recursion bindings body =>
      let own := match recursion with
        | .recursive => Binding.frames bindings
        | .nonrecursive => []
      bindings.map (fun b => (own, b.expr)) ++ [(Binding.frames bindings, body)]
  | .function cases => cases.flatMap (·.scopedParts)
  | .lambda _ default param body => default.toList.map (([], ·)) ++ [(param.frames, body)]
  | .matchWith scrutinee cases => ([], scrutinee) :: cases.flatMap (·.scopedParts)
  | .openIn decl body => [([.opened decl.module.value], body)]
  | shape => shape.parts.map (([], ·))

/-- What stands at a place of an expression and the frames around it. A place is given by the
number of the part to enter on each level, and `scope` is what there is around the expression. -/
def Expr.place? (scope : Scope π) (e : Expr π) : List Nat → Option (Scope π × Expr π)
  | [] => some (scope, e)
  | i :: path =>
      match e.shape.scopedParts[i]? with
      | none => none
      | some (frames, part) => part.place? (frames ++ scope) path

/-- The parts of cases with their scopes are the parts of the cases. -/
theorem Case.scopedParts_map_snd (cases : List (Case π)) :
    (cases.flatMap (·.scopedParts)).map (·.2) = cases.flatMap (·.parts) := by
  simp [List.map_flatMap, scopedParts, Function.comp_def]

/-- The parts with frames are all the parts there are. -/
theorem ExprShape.scopedParts_map_snd (s : ExprShape π) : s.scopedParts.map (·.2) = s.parts := by
  cases s with
  | function cases => exact Case.scopedParts_map_snd cases
  | matchWith scrutinee cases =>
      exact congrArg (scrutinee :: ·) (Case.scopedParts_map_snd cases)
  | _ => simp [scopedParts, parts, Function.comp_def]

end DeriveKit
