import DeriveKit.Code.Visit

/-!
# DeriveKit.Proofs.Parts

The expressions directly inside an expression, in the order of the source (`ExprShape.parts`), and
all that are inside it at any depth (`Expr.Within`). What holds of an expression if it holds of its
parts holds of all (`Expr.induction_parts`), so facts about expressions follow without a case for
each form.
-/

namespace DeriveKit

variable {π : Type}

/-- The expressions directly inside a case, the guard before the body. -/
def Case.parts (c : Case π) : List (Expr π) := c.guard.toList ++ [c.body]

/-- The expressions directly inside a form of expression, in the order of the source. A record comes
after the one that it is made from. -/
def ExprShape.parts : ExprShape π → List (Expr π)
  | .ident _ | .constant _ | .extension _ => []
  | .letIn _ bindings body => bindings.map (·.expr) ++ [body]
  | .function cases => cases.flatMap (·.parts)
  | .lambda _ default _ body => default.toList ++ [body]
  | .apply callee args => callee :: args.map (·.2)
  | .matchWith scrutinee cases => scrutinee :: cases.flatMap (·.parts)
  | .tuple elements => elements
  | .construct _ arg | .variant _ arg => arg.toList
  | .record fields base => base.toList ++ fields.map (·.2)
  | .field expr _ | .constraint expr _ | .openIn _ expr => [expr]
  | .ifThenElse condition onTrue onFalse => condition :: onTrue :: onFalse.toList
  | .sequence first second => [first, second]

/-- An expression stands in an expression position of another one: it is that expression, or stands
in one of its parts. -/
inductive Expr.Within : Expr π → Expr π → Prop
  | self (e : Expr π) : Within e e
  | part {p part e : Expr π} (hpart : part ∈ e.shape.parts) (h : Within p part) : Within p e

/-! ## induction -/

/-- The parts of a case are smaller than it. -/
theorem Case.sizeOf_part_lt {c : Case π} {p : Expr π} (h : p ∈ c.parts) : sizeOf p < sizeOf c := by
  obtain ⟨pattern, guard, body⟩ := c
  rw [Case.mk.sizeOf_spec]
  simp only [parts, List.mem_append, Option.mem_toList, List.mem_singleton] at h
  obtain rfl | rfl := h
  · simp only [Option.some.sizeOf_spec]
    omega
  · omega

/-- The parts of some cases are smaller than the list of them. -/
theorem Case.sizeOf_lt_of_mem_parts {cases : List (Case π)} {p : Expr π}
    (h : p ∈ cases.flatMap (·.parts)) : sizeOf p < sizeOf cases := by
  obtain ⟨c, hc, hp⟩ := List.mem_flatMap.1 h
  exact Nat.lt_trans (sizeOf_part_lt hp) (List.sizeOf_lt_of_mem hc)

/-- Arguments and fields are smaller than the list of them. -/
theorem Expr.sizeOf_lt_of_mem_map_snd {β : Type} [SizeOf β] {pairs : List (β × Expr π)}
    {p : Expr π} (h : p ∈ pairs.map (·.2)) : sizeOf p < sizeOf pairs := by
  obtain ⟨⟨b, e⟩, hpair, rfl⟩ := List.mem_map.1 h
  have hsize := List.sizeOf_lt_of_mem hpair
  simp only [Prod.mk.sizeOf_spec] at hsize ⊢
  omega

/-- The expressions that are bound are smaller than the bindings. -/
theorem Binding.sizeOf_lt_of_mem_map_expr {bindings : List (Binding π)} {p : Expr π}
    (h : p ∈ bindings.map (·.expr)) : sizeOf p < sizeOf bindings := by
  obtain ⟨⟨pattern, expr, attributes, span⟩, hb, rfl⟩ := List.mem_map.1 h
  have hsize := List.sizeOf_lt_of_mem hb
  simp only [Binding.mk.sizeOf_spec] at hsize ⊢
  omega

/-- A part that is there is smaller than the option. -/
theorem Expr.sizeOf_lt_of_mem_toList {e : Option (Expr π)} {p : Expr π} (h : p ∈ e.toList) :
    sizeOf p < sizeOf e := by
  rw [Option.mem_toList] at h
  subst h
  simp

/-- A part is smaller than the whole. -/
theorem ExprShape.sizeOf_lt_of_mem_parts {s : ExprShape π} {p : Expr π} (h : p ∈ s.parts) :
    sizeOf p < sizeOf s := by
  cases s with
  | ident | constant | extension => cases h
  | letIn recursion bindings body =>
      rw [letIn.sizeOf_spec]
      obtain hp | hp := List.mem_append.1 h
      · have hsize := Binding.sizeOf_lt_of_mem_map_expr hp
        omega
      · rw [List.mem_singleton.1 hp]
        omega
  | function cases =>
      have hsize := Case.sizeOf_lt_of_mem_parts h
      rw [function.sizeOf_spec]
      omega
  | lambda label default param body =>
      rw [lambda.sizeOf_spec]
      obtain hp | hp := List.mem_append.1 h
      · have hsize := Expr.sizeOf_lt_of_mem_toList hp
        omega
      · rw [List.mem_singleton.1 hp]
        omega
  | apply callee args =>
      rw [apply.sizeOf_spec]
      obtain rfl | hp := List.mem_cons.1 h
      · omega
      · have hsize := Expr.sizeOf_lt_of_mem_map_snd hp
        omega
  | matchWith scrutinee cases =>
      rw [matchWith.sizeOf_spec]
      obtain rfl | hp := List.mem_cons.1 h
      · omega
      · have hsize := Case.sizeOf_lt_of_mem_parts hp
        omega
  | tuple elements =>
      have hsize : sizeOf p < sizeOf elements := List.sizeOf_lt_of_mem h
      rw [tuple.sizeOf_spec]
      omega
  | construct name arg =>
      have hsize := Expr.sizeOf_lt_of_mem_toList h
      rw [construct.sizeOf_spec]
      omega
  | variant tag arg =>
      have hsize := Expr.sizeOf_lt_of_mem_toList h
      rw [variant.sizeOf_spec]
      omega
  | record fields base =>
      rw [record.sizeOf_spec]
      obtain hp | hp := List.mem_append.1 h
      · have hsize := Expr.sizeOf_lt_of_mem_toList hp
        omega
      · have hsize := Expr.sizeOf_lt_of_mem_map_snd hp
        omega
  | ifThenElse condition onTrue onFalse =>
      rw [ifThenElse.sizeOf_spec]
      obtain rfl | hp := List.mem_cons.1 h
      · omega
      obtain rfl | hp := List.mem_cons.1 hp
      · omega
      · have hsize := Expr.sizeOf_lt_of_mem_toList hp
        omega
  | sequence first second =>
      rw [sequence.sizeOf_spec]
      obtain rfl | hp := List.mem_cons.1 h
      · omega
      · rw [List.mem_singleton.1 hp]
        omega
  | field expr label =>
      rw [field.sizeOf_spec, List.mem_singleton.1 h]
      omega
  | constraint expr type =>
      rw [constraint.sizeOf_spec, List.mem_singleton.1 h]
      omega
  | openIn decl expr =>
      rw [openIn.sizeOf_spec, List.mem_singleton.1 h]
      omega

/-- What holds of an expression if it holds of its parts holds of all expressions. -/
theorem Expr.induction_parts {motive : Expr π → Prop}
    (node : ∀ e : Expr π, (∀ p ∈ e.shape.parts, motive p) → motive e) (e : Expr π) : motive e :=
  node e fun p _ => Expr.induction_parts node p
termination_by sizeOf e
decreasing_by
  obtain ⟨shape, span, attributes⟩ := e
  have hsize : sizeOf p < sizeOf shape := ExprShape.sizeOf_lt_of_mem_parts ‹_›
  simp only [Expr.mk.sizeOf_spec]
  omega

end DeriveKit
