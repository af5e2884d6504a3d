import DeriveKit.Proofs.Parts

/-!
# DeriveKit.Proofs.MapParts

Changing the expressions directly inside an expression and nothing else. `ExprShape.mapParts` is one
layer of every transformation that goes on to the parts; the laws here are all that is needed of the
single forms, so a transformation is told by `Expr.induction_parts` and what it does at one node.

* `mapParts_congr`, `mapParts_id`, `mapParts_mapParts`, `parts_mapParts` — the laws;
* `visit_ofExpr_of_some`, `visit_ofExpr_of_none`, `visit_ofExpr_pure` — one layer of a visit.
-/

namespace DeriveKit

variable {π : Type}

/-- The case with its guard and its body changed. -/
def Case.mapParts (f : Expr π → Expr π) (c : Case π) : Case π :=
  ⟨c.pattern, c.guard.map f, f c.body⟩

/-- The binding with its expression changed. -/
def Binding.mapExpr (f : Expr π → Expr π) (b : Binding π) : Binding π := { b with expr := f b.expr }

/-- The form of expression with the expressions directly inside it changed. -/
def ExprShape.mapParts (f : Expr π → Expr π) : ExprShape π → ExprShape π
  | .ident name => .ident name
  | .constant value => .constant value
  | .letIn recursion bindings body => .letIn recursion (bindings.map (·.mapExpr f)) (f body)
  | .function cases => .function (cases.map (·.mapParts f))
  | .lambda label default param body => .lambda label (default.map f) param (f body)
  | .apply callee args => .apply (f callee) (args.map fun arg => (arg.1, f arg.2))
  | .matchWith scrutinee cases => .matchWith (f scrutinee) (cases.map (·.mapParts f))
  | .tuple elements => .tuple (elements.map f)
  | .construct name arg => .construct name (arg.map f)
  | .variant tag arg => .variant tag (arg.map f)
  | .record fields base => .record (fields.map fun field => (field.1, f field.2)) (base.map f)
  | .field e label => .field (f e) label
  | .ifThenElse condition onTrue onFalse => .ifThenElse (f condition) (f onTrue) (onFalse.map f)
  | .sequence first second => .sequence (f first) (f second)
  | .constraint e type => .constraint (f e) type
  | .openIn decl body => .openIn decl (f body)
  | .extension ext => .extension ext

/-! ## laws -/

section Laws

variable {f g : Expr π → Expr π}

/-- Changes that agree on the parts of a case change it alike. -/
theorem Case.mapParts_congr {c : Case π} (h : ∀ p ∈ c.parts, f p = g p) :
    c.mapParts f = c.mapParts g := by
  obtain ⟨pattern, guard, body⟩ := c
  simp only [parts, List.forall_mem_append, List.forall_mem_singleton] at h
  rw [mapParts, mapParts, Option.map_congr fun p hp => h.1 p (Option.mem_toList.2 hp), h.2]

/-- So it is with several cases. -/
theorem Case.map_mapParts_congr {cases : List (Case π)}
    (h : ∀ p ∈ cases.flatMap (·.parts), f p = g p) :
    cases.map (·.mapParts f) = cases.map (·.mapParts g) :=
  List.map_congr_left fun c hc => mapParts_congr fun p hp => h p (List.mem_flatMap.2 ⟨c, hc, hp⟩)

/-- What becomes of the parts is all that matters. -/
theorem ExprShape.mapParts_congr {s : ExprShape π} (h : ∀ p ∈ s.parts, f p = g p) :
    s.mapParts f = s.mapParts g := by
  have hoption {e : Option (Expr π)} (h : ∀ p ∈ e.toList, f p = g p) : e.map f = e.map g :=
    Option.map_congr fun p hp => h p (Option.mem_toList.2 hp)
  have hpairs {α : Type} {pairs : List (α × Expr π)} (h : ∀ p ∈ pairs.map (·.2), f p = g p) :
      pairs.map (fun pair => (pair.1, f pair.2)) = pairs.map fun pair => (pair.1, g pair.2) :=
    List.map_congr_left fun pair hpair => by rw [h _ (List.mem_map_of_mem hpair)]
  cases s with
  | ident | constant | extension => rfl
  | letIn recursion bindings body =>
      simp only [parts, List.forall_mem_append, List.forall_mem_map, List.forall_mem_singleton] at h
      have hbindings : bindings.map (·.mapExpr f) = bindings.map (·.mapExpr g) :=
        List.map_congr_left fun b hb => by rw [Binding.mapExpr, Binding.mapExpr, h.1 b hb]
      rw [mapParts, mapParts, hbindings, h.2]
  | function cases => rw [mapParts, mapParts, Case.map_mapParts_congr h]
  | lambda label default param body =>
      simp only [parts, List.forall_mem_append, List.forall_mem_singleton] at h
      rw [mapParts, mapParts, hoption h.1, h.2]
  | apply callee args =>
      obtain ⟨hcallee, hargs⟩ := List.forall_mem_cons.1 h
      rw [mapParts, mapParts, hcallee, hpairs hargs]
  | matchWith scrutinee cases =>
      obtain ⟨hscrutinee, hcases⟩ := List.forall_mem_cons.1 h
      rw [mapParts, mapParts, hscrutinee, Case.map_mapParts_congr hcases]
  | tuple elements => exact congrArg tuple (List.map_congr_left h)
  | construct name arg | variant name arg => rw [mapParts, mapParts, hoption h]
  | record fields base =>
      obtain ⟨hbase, hfields⟩ := List.forall_mem_append.1 h
      rw [mapParts, mapParts, hoption hbase, hpairs hfields]
  | ifThenElse condition onTrue onFalse =>
      simp only [parts, List.forall_mem_cons] at h
      rw [mapParts, mapParts, h.1, h.2.1, hoption h.2.2]
  | sequence first second =>
      simp only [parts, List.forall_mem_cons] at h
      rw [mapParts, mapParts, h.1, h.2.1]
  | field expr _ | constraint expr _ | openIn _ expr =>
      rw [mapParts, mapParts, List.forall_mem_singleton.1 h]

/-- Changing no part changes nothing. -/
theorem ExprShape.mapParts_id (s : ExprShape π) : s.mapParts id = s := by
  have hcase (c : Case π) : c.mapParts id = c := by
    obtain ⟨pattern, guard, body⟩ := c
    simp [Case.mapParts]
  have hbinding (b : Binding π) : b.mapExpr id = b := by
    obtain ⟨pattern, expr, attributes, span⟩ := b
    rfl
  cases s <;> simp [mapParts, hcase, hbinding]

/-- Two changes of the parts are one. -/
theorem ExprShape.mapParts_mapParts (f g : Expr π → Expr π) (s : ExprShape π) :
    (s.mapParts f).mapParts g = s.mapParts (g ∘ f) := by
  have hcase (c : Case π) : (c.mapParts f).mapParts g = c.mapParts (g ∘ f) := by
    simp [Case.mapParts]
  cases s <;> simp [mapParts, hcase, Binding.mapExpr]

/-- The parts of what was changed are the changed parts. -/
theorem ExprShape.parts_mapParts (f : Expr π → Expr π) (s : ExprShape π) :
    (s.mapParts f).parts = s.parts.map f := by
  have hcases (cases : List (Case π)) :
      (cases.map (·.mapParts f)).flatMap (·.parts) = (cases.flatMap (·.parts)).map f := by
    rw [List.flatMap_map, List.map_flatMap]
    refine congrArg cases.flatMap (funext fun c => ?_)
    obtain ⟨pattern, guard, body⟩ := c
    cases guard <;> rfl
  cases s with
  | function cases => exact hcases cases
  | matchWith scrutinee cases => exact congrArg (f scrutinee :: ·) (hcases cases)
  | lambda label default param body => cases default <;> rfl
  | construct name arg | variant name arg => cases arg <;> rfl
  | record fields base => cases base <;> simp [mapParts, parts]
  | ifThenElse condition onTrue onFalse => cases onFalse <;> rfl
  | _ => simp [mapParts, parts, Binding.mapExpr]

/-- Nothing is changed if no part is. -/
theorem ExprShape.mapParts_eq_self {s : ExprShape π} (h : ∀ p ∈ s.parts, f p = p) :
    s.mapParts f = s :=
  (mapParts_congr h).trans s.mapParts_id

end Laws

/-! ## visiting -/

section Visiting

variable {m : Type → Type} [Monad m] [LawfulMonad m] {expr : Expr π → m (Option (Expr π))}
  {check : Expr π → m Unit} {f : Expr π → Expr π}

/- The effects of visiting a node are those of its first part and then those of its second, and so
on, while the result is built from the results of the parts. So each equation below moves the
effects to the front. -/

/-- A visit that checks and changes every part does all checks in order and then all changes: here
for a part that may be absent. -/
theorem Expr.visitOption_ofExpr {e : Option (Expr π)}
    (h : ∀ p ∈ e.toList, p.visit (.ofExpr expr) = do check p; return f p) :
    Expr.visitOption (.ofExpr expr) e = do
      forM e.toList check
      return e.map f := by
  cases e with
  | none => simp [Expr.visitOption]
  | some e =>
      rw [Option.toList_some, List.forall_mem_singleton] at h
      simp [Expr.visitOption, h]

/-- Checks and changes come apart for parts one after the other. -/
theorem Expr.visitAll_ofExpr {es : List (Expr π)}
    (h : ∀ p ∈ es, p.visit (.ofExpr expr) = do check p; return f p) :
    Expr.visitAll (.ofExpr expr) es = do
      forM es check
      return es.map f := by
  induction es with
  | nil => simp [Expr.visitAll]
  | cons e rest ih =>
      obtain ⟨he, hrest⟩ := List.forall_mem_cons.1 h
      simp [Expr.visitAll, he, ih hrest]

/-- Checks and changes come apart for arguments. -/
theorem Expr.visitArgs_ofExpr {args : List (ArgLabel × Expr π)}
    (h : ∀ p ∈ args.map (·.2), p.visit (.ofExpr expr) = do check p; return f p) :
    Expr.visitArgs (.ofExpr expr) args = do
      forM (args.map (·.2)) check
      return args.map fun arg => (arg.1, f arg.2) := by
  induction args with
  | nil => simp [Expr.visitArgs]
  | cons arg rest ih =>
      obtain ⟨harg, hrest⟩ := List.forall_mem_cons.1 h
      simp [Expr.visitArgs, harg, ih hrest]

/-- Checks and changes come apart for fields. -/
theorem Expr.visitFields_ofExpr {fields : List (Located QualName × Expr π)}
    (h : ∀ p ∈ fields.map (·.2), p.visit (.ofExpr expr) = do check p; return f p) :
    Expr.visitFields (.ofExpr expr) fields = do
      forM (fields.map (·.2)) check
      return fields.map fun field => (field.1, f field.2) := by
  induction fields with
  | nil => simp [Expr.visitFields]
  | cons field rest ih =>
      obtain ⟨hfield, hrest⟩ := List.forall_mem_cons.1 h
      simp [Expr.visitFields, hfield, ih hrest]

/-- Checks and changes come apart for cases, whose patterns are not visited. -/
theorem Case.visitAll_ofExpr {cases : List (Case π)}
    (h : ∀ p ∈ cases.flatMap (·.parts), p.visit (.ofExpr expr) = do check p; return f p) :
    Case.visitAll (.ofExpr expr) cases = do
      forM (cases.flatMap (·.parts)) check
      return cases.map (·.mapParts f) := by
  induction cases with
  | nil => simp [Case.visitAll]
  | cons c rest ih =>
      obtain ⟨pattern, guard, body⟩ := c
      rw [List.flatMap_cons, List.forall_mem_append] at h
      obtain ⟨hguard, hbody⟩ := List.forall_mem_append.1 h.1
      have hcase : (Visitor.ofExpr expr).case ⟨pattern, guard, body⟩ = pure () := rfl
      rw [List.forall_mem_singleton] at hbody
      simp [Case.visitAll, hcase, Expr.visitOption_ofExpr hguard, hbody, ih h.2, parts, mapParts]

/-- Checks and changes come apart for bindings. -/
theorem Binding.visitAll_ofExpr {bindings : List (Binding π)}
    (h : ∀ p ∈ bindings.map (·.expr), p.visit (.ofExpr expr) = do check p; return f p) :
    Binding.visitAll (.ofExpr expr) bindings = do
      forM (bindings.map (·.expr)) check
      return bindings.map (·.mapExpr f) := by
  induction bindings with
  | nil => simp [Binding.visitAll]
  | cons b rest ih =>
      obtain ⟨hexpr, hrest⟩ := List.forall_mem_cons.1 h
      obtain ⟨pattern, e, attributes, span⟩ := b
      have hbinding : (Visitor.ofExpr expr).binding ⟨pattern, e, attributes, span⟩ = pure () := rfl
      simp [Binding.visitAll, hbinding, hexpr, ih hrest, mapExpr]

/-- **Visiting part by part.** If visiting each part comes to a check and then a change, visiting
below the node comes to the checks of the parts in order and then the change of all of them. -/
theorem ExprShape.visit_ofExpr {s : ExprShape π}
    (h : ∀ p ∈ s.parts, p.visit (.ofExpr expr) = do check p; return f p) :
    s.visit (.ofExpr expr) = do
      forM s.parts check
      return s.mapParts f := by
  cases s with
  | ident | constant | extension => simp [visit, parts, mapParts]
  | letIn recursion bindings body =>
      obtain ⟨hbindings, hbody⟩ := List.forall_mem_append.1 h
      rw [List.forall_mem_singleton] at hbody
      simp [visit, parts, mapParts, Binding.visitAll_ofExpr hbindings, hbody]
  | function cases => simp [visit, parts, mapParts, Case.visitAll_ofExpr h]
  | lambda label default param body =>
      obtain ⟨hdefault, hbody⟩ := List.forall_mem_append.1 h
      rw [List.forall_mem_singleton] at hbody
      simp [visit, parts, mapParts, Expr.visitOption_ofExpr hdefault, hbody]
  | apply callee args =>
      obtain ⟨hcallee, hargs⟩ := List.forall_mem_cons.1 h
      simp [visit, parts, mapParts, hcallee, Expr.visitArgs_ofExpr hargs]
  | matchWith scrutinee cases =>
      obtain ⟨hscrutinee, hcases⟩ := List.forall_mem_cons.1 h
      simp [visit, parts, mapParts, hscrutinee, Case.visitAll_ofExpr hcases]
  | tuple elements =>
      have helements : ∀ p ∈ elements, p.visit (.ofExpr expr) = do check p; return f p := h
      simp [visit, parts, mapParts, Expr.visitAll_ofExpr helements]
  | construct name arg | variant name arg =>
      simp [visit, parts, mapParts, Expr.visitOption_ofExpr h]
  | record fields base =>
      obtain ⟨hbase, hfields⟩ := List.forall_mem_append.1 h
      simp [visit, parts, mapParts, Expr.visitOption_ofExpr hbase, Expr.visitFields_ofExpr hfields]
  | ifThenElse condition onTrue onFalse =>
      obtain ⟨hcondition, hrest⟩ := List.forall_mem_cons.1 h
      obtain ⟨honTrue, honFalse⟩ := List.forall_mem_cons.1 hrest
      simp [visit, parts, mapParts, hcondition, honTrue, Expr.visitOption_ofExpr honFalse]
  | sequence first second =>
      obtain ⟨hfirst, hsecond⟩ := List.forall_mem_cons.1 h
      rw [List.forall_mem_singleton] at hsecond
      simp [visit, parts, mapParts, hfirst, hsecond]
  | field e _ | constraint e _ | openIn _ e =>
      simp [visit, parts, mapParts, List.forall_mem_singleton.1 h]

/-- What the visitor puts in the place of a node is the result there. -/
theorem Expr.visit_ofExpr_of_some {e : Expr π} {result : m (Expr π)}
    (h : expr e = some <$> result) : e.visit (.ofExpr expr) = result := by
  obtain ⟨shape, span, attributes⟩ := e
  have hexpr : (Visitor.ofExpr expr).expr ⟨shape, span, attributes⟩ = some <$> result := h
  rw [visit, hexpr, bind_map_left, bind_pure]

/-- Where the visitor goes on, the parts are visited and nothing else is changed. -/
theorem Expr.visit_ofExpr_of_none {e : Expr π} (h : expr e = pure none)
    (hparts : ∀ p ∈ e.shape.parts, p.visit (.ofExpr expr) = do check p; return f p) :
    e.visit (.ofExpr expr) = do
      forM e.shape.parts check
      return { e with shape := e.shape.mapParts f } := by
  obtain ⟨shape, span, attributes⟩ := e
  have hexpr : (Visitor.ofExpr expr).expr ⟨shape, span, attributes⟩ = pure none := h
  simp only [visit, hexpr, pure_bind, ExprShape.visit_ofExpr hparts, bind_assoc]

/-- Where visiting the parts has no effect, going on has none. -/
theorem Expr.visit_ofExpr_pure {e : Expr π} (h : expr e = pure none)
    (hparts : ∀ p ∈ e.shape.parts, p.visit (.ofExpr expr) = pure (f p)) :
    e.visit (.ofExpr expr) = pure { e with shape := e.shape.mapParts f } := by
  have hforM (es : List (Expr π)) : forM es (fun _ => (pure () : m Unit)) = pure () := by
    induction es with
    | nil => rfl
    | cons e es ih => rw [List.forM_cons, ih, pure_bind]
  have hcheck : ∀ p ∈ e.shape.parts,
      p.visit (.ofExpr expr) = pure () >>= fun _ => pure (f p) := by
    intro p hp
    rw [hparts p hp, pure_bind]
  rw [visit_ofExpr_of_none h hcheck, hforM, pure_bind]

end Visiting

end DeriveKit
