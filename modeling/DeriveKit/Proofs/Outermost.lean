import DeriveKit.Proofs.MapParts
import DeriveKit.Proofs.Outcome

/-!
# DeriveKit.Proofs.Outermost

The expressions that a choice picks out of an expression, looking at parents before children and
not inside what is picked. `Expr.outermost` lists them in the order of the source, and
`Expr.replaceOutermost` puts other expressions in their place. Both can be told part by part
(`Expr.outermost_of_not_pick`, `Expr.replaceOutermost_of_not_pick`). A visitor that acts at the
picked expressions only and may fail there is the two together (`Expr.visit_answering`): it checks
them in order, and if none fails the result is the replacement.
-/

namespace DeriveKit

variable {π κ : Type}

/-! ## listing -/

mutual

/-- What is picked out of an expression, in the order of the source. -/
def Expr.outermost (pick : Expr π → Option κ) : Expr π → List κ
  | ⟨shape, span, attributes⟩ =>
      match pick ⟨shape, span, attributes⟩ with
      | some k => [k]
      | none => ExprShape.outermost pick shape

/-- What is picked out of the parts of an expression. -/
def ExprShape.outermost (pick : Expr π → Option κ) : ExprShape π → List κ
  | .ident _ | .constant _ | .extension _ => []
  | .letIn _ bindings body => Binding.outermostAll pick bindings ++ Expr.outermost pick body
  | .function cases => Case.outermostAll pick cases
  | .lambda _ default _ body => Expr.outermostOption pick default ++ Expr.outermost pick body
  | .apply function args => Expr.outermost pick function ++ Expr.outermostArgs pick args
  | .matchWith scrutinee cases => Expr.outermost pick scrutinee ++ Case.outermostAll pick cases
  | .tuple elements => Expr.outermostAll pick elements
  | .construct _ arg => Expr.outermostOption pick arg
  | .variant _ arg => Expr.outermostOption pick arg
  | .record fields base => Expr.outermostOption pick base ++ Expr.outermostFields pick fields
  | .field record _ => Expr.outermost pick record
  | .ifThenElse condition onTrue onFalse =>
      Expr.outermost pick condition ++ Expr.outermost pick onTrue ++
        Expr.outermostOption pick onFalse
  | .sequence first second => Expr.outermost pick first ++ Expr.outermost pick second
  | .constraint expr _ => Expr.outermost pick expr
  | .openIn _ body => Expr.outermost pick body

/-- What is picked out of an expression that may be absent. -/
def Expr.outermostOption (pick : Expr π → Option κ) : Option (Expr π) → List κ
  | none => []
  | some e => Expr.outermost pick e

/-- What is picked out of expressions. -/
def Expr.outermostAll (pick : Expr π → Option κ) : List (Expr π) → List κ
  | [] => []
  | e :: rest => Expr.outermost pick e ++ Expr.outermostAll pick rest

/-- What is picked out of arguments. -/
def Expr.outermostArgs (pick : Expr π → Option κ) : List (ArgLabel × Expr π) → List κ
  | [] => []
  | (_, e) :: rest => Expr.outermost pick e ++ Expr.outermostArgs pick rest

/-- What is picked out of the values of fields. -/
def Expr.outermostFields (pick : Expr π → Option κ) : List (Located QualName × Expr π) → List κ
  | [] => []
  | (_, e) :: rest => Expr.outermost pick e ++ Expr.outermostFields pick rest

/-- What is picked out of cases, the guard of each before its body. -/
def Case.outermostAll (pick : Expr π → Option κ) : List (Case π) → List κ
  | [] => []
  | ⟨_, guard, body⟩ :: rest =>
      Expr.outermostOption pick guard ++ Expr.outermost pick body ++ Case.outermostAll pick rest

/-- What is picked out of the expressions of bindings. -/
def Binding.outermostAll (pick : Expr π → Option κ) : List (Binding π) → List κ
  | [] => []
  | ⟨_, expr, _, _⟩ :: rest => Expr.outermost pick expr ++ Binding.outermostAll pick rest

end

/-! ## replacing -/

mutual

/-- The expression with `put k` in the place of each `k` that is picked. -/
def Expr.replaceOutermost (pick : Expr π → Option κ) (put : κ → Expr π) : Expr π → Expr π
  | ⟨shape, span, attributes⟩ =>
      match pick ⟨shape, span, attributes⟩ with
      | some k => put k
      | none => ⟨ExprShape.replaceOutermost pick put shape, span, attributes⟩

/-- Replacement in the parts of an expression. -/
def ExprShape.replaceOutermost (pick : Expr π → Option κ) (put : κ → Expr π) :
    ExprShape π → ExprShape π
  | .ident name => .ident name
  | .constant value => .constant value
  | .letIn recursion bindings body =>
      .letIn recursion (Binding.replaceOutermostAll pick put bindings)
        (Expr.replaceOutermost pick put body)
  | .function cases => .function (Case.replaceOutermostAll pick put cases)
  | .lambda label default param body =>
      .lambda label (Expr.replaceOutermostOption pick put default) param
        (Expr.replaceOutermost pick put body)
  | .apply function args =>
      .apply (Expr.replaceOutermost pick put function) (Expr.replaceOutermostArgs pick put args)
  | .matchWith scrutinee cases =>
      .matchWith (Expr.replaceOutermost pick put scrutinee)
        (Case.replaceOutermostAll pick put cases)
  | .tuple elements => .tuple (Expr.replaceOutermostAll pick put elements)
  | .construct name arg => .construct name (Expr.replaceOutermostOption pick put arg)
  | .variant tag arg => .variant tag (Expr.replaceOutermostOption pick put arg)
  | .record fields base =>
      .record (Expr.replaceOutermostFields pick put fields)
        (Expr.replaceOutermostOption pick put base)
  | .field record label => .field (Expr.replaceOutermost pick put record) label
  | .ifThenElse condition onTrue onFalse =>
      .ifThenElse (Expr.replaceOutermost pick put condition) (Expr.replaceOutermost pick put onTrue)
        (Expr.replaceOutermostOption pick put onFalse)
  | .sequence first second =>
      .sequence (Expr.replaceOutermost pick put first) (Expr.replaceOutermost pick put second)
  | .constraint expr type => .constraint (Expr.replaceOutermost pick put expr) type
  | .openIn decl body => .openIn decl (Expr.replaceOutermost pick put body)
  | .extension ext => .extension ext

/-- Replacement in an expression that may be absent. -/
def Expr.replaceOutermostOption (pick : Expr π → Option κ) (put : κ → Expr π) :
    Option (Expr π) → Option (Expr π)
  | none => none
  | some e => some (Expr.replaceOutermost pick put e)

/-- Replacement in each of some expressions. -/
def Expr.replaceOutermostAll (pick : Expr π → Option κ) (put : κ → Expr π) :
    List (Expr π) → List (Expr π)
  | [] => []
  | e :: rest => Expr.replaceOutermost pick put e :: Expr.replaceOutermostAll pick put rest

/-- Replacement in arguments. -/
def Expr.replaceOutermostArgs (pick : Expr π → Option κ) (put : κ → Expr π) :
    List (ArgLabel × Expr π) → List (ArgLabel × Expr π)
  | [] => []
  | (label, e) :: rest =>
      (label, Expr.replaceOutermost pick put e) :: Expr.replaceOutermostArgs pick put rest

/-- Replacement in the values of fields. -/
def Expr.replaceOutermostFields (pick : Expr π → Option κ) (put : κ → Expr π) :
    List (Located QualName × Expr π) → List (Located QualName × Expr π)
  | [] => []
  | (label, e) :: rest =>
      (label, Expr.replaceOutermost pick put e) :: Expr.replaceOutermostFields pick put rest

/-- Replacement in cases. -/
def Case.replaceOutermostAll (pick : Expr π → Option κ) (put : κ → Expr π) :
    List (Case π) → List (Case π)
  | [] => []
  | ⟨pattern, guard, body⟩ :: rest =>
      ⟨pattern, Expr.replaceOutermostOption pick put guard, Expr.replaceOutermost pick put body⟩ ::
        Case.replaceOutermostAll pick put rest

/-- Replacement in the expressions of bindings. -/
def Binding.replaceOutermostAll (pick : Expr π → Option κ) (put : κ → Expr π) :
    List (Binding π) → List (Binding π)
  | [] => []
  | ⟨pattern, expr, attributes, span⟩ :: rest =>
      ⟨pattern, Expr.replaceOutermost pick put expr, attributes, span⟩ ::
        Binding.replaceOutermostAll pick put rest

end

/-! ## part by part -/

section Companions

variable (pick : Expr π → Option κ) (put : κ → Expr π)

/-- What is picked out of a part that may be absent is picked out of the part. -/
theorem Expr.outermostOption_eq_flatMap (e : Option (Expr π)) :
    Expr.outermostOption pick e = e.toList.flatMap (·.outermost pick) := by
  cases e <;> simp [Expr.outermostOption]

/-- What is picked out of parts is picked out of each, in order. -/
theorem Expr.outermostAll_eq_flatMap (es : List (Expr π)) :
    Expr.outermostAll pick es = es.flatMap (·.outermost pick) := by
  induction es with
  | nil => rfl
  | cons e rest ih => rw [Expr.outermostAll, ih, List.flatMap_cons]

/-- What is picked out of arguments is picked out of each, in order. -/
theorem Expr.outermostArgs_eq_flatMap (args : List (ArgLabel × Expr π)) :
    Expr.outermostArgs pick args = (args.map (·.2)).flatMap (·.outermost pick) := by
  induction args with
  | nil => rfl
  | cons arg rest ih => rw [Expr.outermostArgs, ih, List.map_cons, List.flatMap_cons]

/-- What is picked out of fields is picked out of each, in order. -/
theorem Expr.outermostFields_eq_flatMap (fields : List (Located QualName × Expr π)) :
    Expr.outermostFields pick fields = (fields.map (·.2)).flatMap (·.outermost pick) := by
  induction fields with
  | nil => rfl
  | cons field rest ih => rw [Expr.outermostFields, ih, List.map_cons, List.flatMap_cons]

/-- What is picked out of cases is picked out of their guards and bodies. -/
theorem Case.outermostAll_eq_flatMap (cases : List (Case π)) :
    Case.outermostAll pick cases = (cases.flatMap (·.parts)).flatMap (·.outermost pick) := by
  induction cases with
  | nil => rfl
  | cons c rest ih =>
      obtain ⟨pattern, guard, body⟩ := c
      simp [Case.outermostAll, Expr.outermostOption_eq_flatMap, Case.parts, ih]

/-- What is picked out of bindings is picked out of the expressions that are bound. -/
theorem Binding.outermostAll_eq_flatMap (bindings : List (Binding π)) :
    Binding.outermostAll pick bindings = bindings.flatMap fun b => b.expr.outermost pick := by
  induction bindings with
  | nil => rfl
  | cons b rest ih =>
      obtain ⟨pattern, expr, attributes, span⟩ := b
      rw [Binding.outermostAll, ih, List.flatMap_cons]

/-- What is picked out of a form of expression is what is picked out of its parts, in order. -/
theorem ExprShape.outermost_eq_flatMap (s : ExprShape π) :
    s.outermost pick = s.parts.flatMap (·.outermost pick) := by
  cases s with
  | ident | constant | extension => rfl
  | letIn recursion bindings body =>
      simp [outermost, parts, Binding.outermostAll_eq_flatMap, List.flatMap_map]
  | function cases => exact Case.outermostAll_eq_flatMap pick cases
  | lambda label default param body =>
      simp [outermost, parts, Expr.outermostOption_eq_flatMap]
  | apply callee args => simp [outermost, parts, Expr.outermostArgs_eq_flatMap]
  | matchWith scrutinee cases => simp [outermost, parts, Case.outermostAll_eq_flatMap]
  | tuple elements => exact Expr.outermostAll_eq_flatMap pick elements
  | construct name arg | variant name arg => exact Expr.outermostOption_eq_flatMap pick arg
  | record fields base =>
      simp [outermost, parts, Expr.outermostOption_eq_flatMap, Expr.outermostFields_eq_flatMap]
  | ifThenElse condition onTrue onFalse =>
      simp [outermost, parts, Expr.outermostOption_eq_flatMap]
  | sequence first second => simp [outermost, parts]
  | field expr _ | constraint expr _ | openIn _ expr => simp [outermost, parts]

/-- Replacing in a part that may be absent is replacing in the part. -/
theorem Expr.replaceOutermostOption_eq_map (e : Option (Expr π)) :
    Expr.replaceOutermostOption pick put e = e.map (·.replaceOutermost pick put) := by
  cases e <;> rfl

/-- Replacing in parts is replacing in each. -/
theorem Expr.replaceOutermostAll_eq_map (es : List (Expr π)) :
    Expr.replaceOutermostAll pick put es = es.map (·.replaceOutermost pick put) := by
  induction es with
  | nil => rfl
  | cons e rest ih => rw [Expr.replaceOutermostAll, ih, List.map_cons]

/-- Replacing in arguments keeps their labels. -/
theorem Expr.replaceOutermostArgs_eq_map (args : List (ArgLabel × Expr π)) :
    Expr.replaceOutermostArgs pick put args =
      args.map fun arg => (arg.1, arg.2.replaceOutermost pick put) := by
  induction args with
  | nil => rfl
  | cons arg rest ih => rw [Expr.replaceOutermostArgs, ih, List.map_cons]

/-- Replacing in fields keeps their labels. -/
theorem Expr.replaceOutermostFields_eq_map (fields : List (Located QualName × Expr π)) :
    Expr.replaceOutermostFields pick put fields =
      fields.map fun field => (field.1, field.2.replaceOutermost pick put) := by
  induction fields with
  | nil => rfl
  | cons field rest ih => rw [Expr.replaceOutermostFields, ih, List.map_cons]

/-- Replacing in cases keeps their patterns. -/
theorem Case.replaceOutermostAll_eq_map (cases : List (Case π)) :
    Case.replaceOutermostAll pick put cases =
      cases.map (·.mapParts (·.replaceOutermost pick put)) := by
  induction cases with
  | nil => rfl
  | cons c rest ih =>
      obtain ⟨pattern, guard, body⟩ := c
      rw [Case.replaceOutermostAll, ih, Expr.replaceOutermostOption_eq_map, List.map_cons, mapParts]

/-- Replacing in bindings keeps their patterns and attributes. -/
theorem Binding.replaceOutermostAll_eq_map (bindings : List (Binding π)) :
    Binding.replaceOutermostAll pick put bindings =
      bindings.map (·.mapExpr (·.replaceOutermost pick put)) := by
  induction bindings with
  | nil => rfl
  | cons b rest ih =>
      obtain ⟨pattern, expr, attributes, span⟩ := b
      rw [Binding.replaceOutermostAll, ih, List.map_cons, mapExpr]

/-- Replacement below a node is replacement in its parts and changes nothing else. -/
theorem ExprShape.replaceOutermost_eq_mapParts (s : ExprShape π) :
    s.replaceOutermost pick put = s.mapParts (·.replaceOutermost pick put) := by
  cases s <;> simp only [replaceOutermost, mapParts, Expr.replaceOutermostOption_eq_map,
    Expr.replaceOutermostAll_eq_map, Expr.replaceOutermostArgs_eq_map,
    Expr.replaceOutermostFields_eq_map, Case.replaceOutermostAll_eq_map,
    Binding.replaceOutermostAll_eq_map]

end Companions

/-! ## picking -/

variable {pick : Expr π → Option κ} {put put' : κ → Expr π} {e : Expr π} {k : κ}

namespace Expr

/-- What is picked is not looked into. -/
theorem outermost_of_pick (h : pick e = some k) : e.outermost pick = [k] := by
  obtain ⟨shape, span, attributes⟩ := e
  rw [outermost, h]

/-- What is not picked is looked into, part by part. -/
theorem outermost_of_not_pick (h : pick e = none) :
    e.outermost pick = e.shape.parts.flatMap (·.outermost pick) := by
  obtain ⟨shape, span, attributes⟩ := e
  rw [outermost, h, ← ExprShape.outermost_eq_flatMap]

/-- What is picked is replaced as a whole. -/
theorem replaceOutermost_of_pick (h : pick e = some k) : e.replaceOutermost pick put = put k := by
  obtain ⟨shape, span, attributes⟩ := e
  rw [replaceOutermost, h]

/-- What is not picked has its parts replaced. -/
theorem replaceOutermost_of_not_pick (h : pick e = none) : e.replaceOutermost pick put =
    { e with shape := e.shape.mapParts (·.replaceOutermost pick put) } := by
  obtain ⟨shape, span, attributes⟩ := e
  rw [replaceOutermost, h, ← ExprShape.replaceOutermost_eq_mapParts]

/-- Nothing is picked out of an expression exactly if no expression in it would be picked. -/
theorem outermost_eq_nil_iff :
    e.outermost pick = [] ↔ ∀ p : Expr π, p.Within e → pick p = none := by
  induction e using induction_parts with
  | node e ih =>
      cases hpick : pick e with
      | some k =>
          rw [outermost_of_pick hpick]
          refine ⟨nofun, fun h => ?_⟩
          rw [h e (.self e)] at hpick
          cases hpick
      | none =>
          rw [outermost_of_not_pick hpick, List.flatMap_eq_nil_iff]
          constructor
          · intro h p hp
            cases hp with
            | self => exact hpick
            | part hpart hp => exact (ih _ hpart).1 (h _ hpart) p hp
          · exact fun h part hpart => (ih part hpart).2 fun p hp => h p (.part hpart hp)

/-- An expression out of which nothing is picked stays as it is. -/
theorem replaceOutermost_eq_self (put : κ → Expr π) (e : Expr π) (h : e.outermost pick = []) :
    e.replaceOutermost pick put = e := by
  induction e using induction_parts with
  | node e ih =>
      obtain ⟨shape, span, attributes⟩ := e
      cases hpick : pick ⟨shape, span, attributes⟩ with
      | some k =>
          rw [outermost_of_pick hpick] at h
          exact absurd h (List.cons_ne_nil k [])
      | none =>
          rw [outermost_of_not_pick hpick, List.flatMap_eq_nil_iff] at h
          have hshape : shape.mapParts (·.replaceOutermost pick put) = shape :=
            ExprShape.mapParts_eq_self fun p hp => ih p hp (h p hp)
          simp only [replaceOutermost_of_not_pick hpick, hshape]

/-- What is put in matters for what is picked only. -/
theorem replaceOutermost_congr (e : Expr π) (h : ∀ k ∈ e.outermost pick, put k = put' k) :
    e.replaceOutermost pick put = e.replaceOutermost pick put' := by
  induction e using induction_parts with
  | node e ih =>
      cases hpick : pick e with
      | some k =>
          rw [outermost_of_pick hpick, List.forall_mem_singleton] at h
          rw [replaceOutermost_of_pick hpick, replaceOutermost_of_pick hpick, h]
      | none =>
          rw [outermost_of_not_pick hpick] at h
          rw [replaceOutermost_of_not_pick hpick, replaceOutermost_of_not_pick hpick,
            ExprShape.mapParts_congr fun p hp =>
              ih p hp fun k hk => h k (List.mem_flatMap.2 ⟨p, hp, hk⟩)]

/-! ## picking leaves -/

variable (hleaf : ∀ e k, pick e = some k → e.shape.parts = [])

include hleaf

/-- If only expressions without parts are picked, then all of them that there are. -/
theorem mem_outermost_iff : k ∈ e.outermost pick ↔ ∃ p : Expr π, p.Within e ∧ pick p = some k := by
  induction e using induction_parts with
  | node e ih =>
      cases hpick : pick e with
      | some k' =>
          rw [outermost_of_pick hpick, List.mem_singleton]
          constructor
          · rintro rfl
            exact ⟨e, .self e, hpick⟩
          · rintro ⟨p, hp, hk⟩
            cases hp with
            | self =>
                rw [hpick] at hk
                exact (Option.some.inj hk).symm
            | part hpart =>
                rw [hleaf e k' hpick] at hpart
                cases hpart
      | none =>
          rw [outermost_of_not_pick hpick, List.mem_flatMap]
          constructor
          · rintro ⟨part, hpart, hk⟩
            obtain ⟨p, hp, hk⟩ := (ih part hpart).1 hk
            exact ⟨p, .part hpart hp, hk⟩
          · rintro ⟨p, hp, hk⟩
            cases hp with
            | self =>
                rw [hpick] at hk
                cases hk
            | part hpart hp => exact ⟨_, hpart, (ih _ hpart).2 ⟨p, hp, hk⟩⟩

/-- A node that is not picked is not picked after a change of its parts either. -/
theorem pick_mapParts (f : Expr π → Expr π) (h : pick e = none) :
    pick { e with shape := e.shape.mapParts f } = none := by
  obtain ⟨shape, span, attributes⟩ := e
  rw [Option.eq_none_iff_forall_ne_some]
  intro k hk
  have hparts : shape.parts = [] := by
    have hmapped := hleaf _ k hk
    rwa [ExprShape.parts_mapParts, List.map_eq_nil_iff] at hmapped
  have hself : shape.mapParts f = shape :=
    ExprShape.mapParts_eq_self fun p hp => absurd hp (hparts ▸ List.not_mem_nil)
  simp only [hself] at hk
  rw [h] at hk
  cases hk

/-- If nothing can be picked out of what is put in, nothing can be picked after a replacement. -/
theorem outermost_replaceOutermost (hput : ∀ k ∈ e.outermost pick, (put k).outermost pick = []) :
    (e.replaceOutermost pick put).outermost pick = [] := by
  induction e using induction_parts with
  | node e ih =>
      cases hpick : pick e with
      | some k =>
          rw [replaceOutermost_of_pick hpick]
          exact hput k (by rw [outermost_of_pick hpick]; exact List.mem_singleton_self k)
      | none =>
          rw [outermost_of_not_pick hpick] at hput
          rw [replaceOutermost_of_not_pick hpick,
            outermost_of_not_pick (pick_mapParts hleaf _ hpick), ExprShape.parts_mapParts,
            List.flatMap_map, List.flatMap_eq_nil_iff]
          exact fun part hpart => ih part hpart fun k hk =>
            hput k (List.mem_flatMap.2 ⟨part, hpart, hk⟩)

end Expr

/-! ## visiting -/

/-- A visitor that puts `answer k` in the place of each `k` that is picked, and fails where there is
no answer. -/
def Visitor.answering (pick : Expr π → Option κ) (answer : κ → Outcome (Expr π)) :
    Visitor Outcome π :=
  .ofExpr fun e => (pick e).elim (.ok none) fun k => some <$> answer k

/-- Doing something for the members of lists one after the other is doing it list by list. -/
theorem forM_flatMap {m : Type → Type} [Monad m] [LawfulMonad m] {α β : Type} (g : α → List β)
    (f : β → m Unit) (xs : List α) :
    forM (xs.flatMap g) f = forM xs fun x => forM (g x) f := by
  induction xs with
  | nil => rfl
  | cons x xs ih => rw [List.flatMap_cons, List.forM_append, ih, List.forM_cons]

section Visit

variable (pick : Expr π → Option κ) (answer : κ → Outcome (Expr π)) (default : Expr π)

/-- **A visitor that answers at picked expressions** checks all answers in order and then puts them
in their places. -/
theorem Expr.visit_answering (e : Expr π) :
    e.visit (.answering pick answer) = do
      forM (e.outermost pick) fun k => (answer k).check
      return e.replaceOutermost pick fun k => (answer k).valueOr default := by
  induction e using induction_parts with
  | node e ih =>
      cases hpick : pick e with
      | some k =>
          have hvisit : e.visit (.answering pick answer) = answer k :=
            visit_ofExpr_of_some (by rw [hpick, Option.elim_some])
          rw [hvisit, outermost_of_pick hpick, replaceOutermost_of_pick hpick, List.forM_cons,
            List.forM_nil]
          cases answer k <;> rfl
      | none =>
          rw [outermost_of_not_pick hpick, replaceOutermost_of_not_pick hpick, forM_flatMap]
          exact visit_ofExpr_of_none (by rw [hpick, Option.elim_none]; rfl) ih

end Visit

end DeriveKit
