import DeriveKit.Proofs.Outermost

/-!
# DeriveKit.Proofs.Renaming

Renaming identifiers in place. `Expr.mapNames` changes the names of the identifiers in expression
positions by a function, and `Expr.names` lists them; the laws of the two make renaming an exact
substitution that can be taken back (`Expr.renaming_is_exact`).

* `mapNames_congr`, `mapNames_id`, `mapNames_mapNames`, `names_mapNames` — the laws;
* `rename_eq_mapNames` — the visitor that renames is of this kind.
-/

namespace DeriveKit

variable {π : Type}

namespace Expr

/-! ## identifiers -/

/-- The name of an identifier. -/
def name? (e : Expr π) : Option (Located QualName) :=
  match e.shape with
  | .ident name => some name
  | _ => none

/-- The names of the identifiers in expression positions, in the order of the source. -/
def names (e : Expr π) : List (Located QualName) := e.outermost name?

/-- The expression with `f n` in the place of the name `n` of each identifier in an expression
position. -/
def mapNames (f : QualName → QualName) (e : Expr π) : Expr π :=
  e.replaceOutermost (fun e => e.name?.map fun name => { e with shape := .ident (name.map f) }) id

variable {e : Expr π} {name : Located QualName} {f g : QualName → QualName}

theorem name?_eq_some_iff : e.name? = some name ↔ e.shape = .ident name := by
  obtain ⟨shape, span, attributes⟩ := e
  cases shape <;> simp [name?]

/-- Renaming inside the parts of an expression does not change whether it is an identifier. -/
theorem name?_mapParts (f : Expr π → Expr π) (e : Expr π) :
    name? { e with shape := e.shape.mapParts f } = e.name? := by
  obtain ⟨shape, span, attributes⟩ := e
  cases shape <;> rfl

/-- An identifier has no parts. -/
theorem parts_of_name? (h : e.name? = some name) : e.shape.parts = [] := by
  rw [name?_eq_some_iff.1 h, ExprShape.parts]

/-- `Expr.names` lists the names of the identifiers at any depth and nothing else. -/
theorem mem_names_iff : name ∈ e.names ↔ ∃ p : Expr π, p.Within e ∧ p.shape = .ident name := by
  simp only [names, mem_outermost_iff fun _ _ => parts_of_name?, name?_eq_some_iff]

theorem names_of_some (h : e.name? = some name) : e.names = [name] := outermost_of_pick h

/-- An expression that is no identifier has the names of its parts. -/
theorem names_of_none (h : e.name? = none) : e.names = e.shape.parts.flatMap names :=
  outermost_of_not_pick h

/-- In place of an identifier stands the identifier with the new name, at the old places. -/
theorem mapNames_of_some (f : QualName → QualName) (h : e.name? = some name) :
    e.mapNames f = { e with shape := .ident (name.map f) } :=
  replaceOutermost_of_pick (by rw [h, Option.map_some])

/-- Any other expression is renamed in its parts. -/
theorem mapNames_of_none (f : QualName → QualName) (h : e.name? = none) :
    e.mapNames f = { e with shape := e.shape.mapParts (mapNames f) } := by
  rw [mapNames, replaceOutermost_of_not_pick (by rw [h, Option.map_none])]
  rfl

/-! ## laws -/

/-- Renaming depends only on what happens to the names that occur. -/
theorem mapNames_congr (h : ∀ name ∈ e.names, f name.value = g name.value) :
    e.mapNames f = e.mapNames g := by
  induction e using induction_parts with
  | node e ih =>
      cases hname : e.name? with
      | some name =>
          rw [names_of_some hname, List.forall_mem_singleton] at h
          rw [mapNames_of_some f hname, mapNames_of_some g hname, Located.map, Located.map, h]
      | none =>
          rw [names_of_none hname] at h
          have hparts : e.shape.mapParts (mapNames f) = e.shape.mapParts (mapNames g) :=
            ExprShape.mapParts_congr fun p hp =>
              ih p hp fun name hmem => h name (List.mem_flatMap.2 ⟨p, hp, hmem⟩)
          rw [mapNames_of_none f hname, mapNames_of_none g hname, hparts]

/-- Renaming every name to itself changes nothing. -/
theorem mapNames_id (e : Expr π) : e.mapNames id = e := by
  induction e using induction_parts with
  | node e ih =>
      obtain ⟨shape, span, attributes⟩ := e
      cases hname : name? ⟨shape, span, attributes⟩ with
      | some name =>
          obtain rfl : shape = .ident name := name?_eq_some_iff.1 hname
          rw [mapNames_of_some id hname]
          rfl
      | none =>
          rw [mapNames_of_none id hname]
          simp only [ExprShape.mapParts_eq_self ih]

/-- Renaming twice is renaming once with the composition. -/
theorem mapNames_mapNames (f g : QualName → QualName) (e : Expr π) :
    (e.mapNames f).mapNames g = e.mapNames (g ∘ f) := by
  induction e using induction_parts with
  | node e ih =>
      cases hname : e.name? with
      | some name =>
          rw [mapNames_of_some f hname, mapNames_of_some (g ∘ f) hname,
            mapNames_of_some g (name?_eq_some_iff.2 rfl)]
          rfl
      | none =>
          have hparts : e.shape.mapParts (mapNames g ∘ mapNames f) =
              e.shape.mapParts (mapNames (g ∘ f)) :=
            ExprShape.mapParts_congr ih
          rw [mapNames_of_none f hname, mapNames_of_none (g ∘ f) hname, ← hparts,
            mapNames_of_none g (by rw [name?_mapParts, hname]), ExprShape.mapParts_mapParts]

/-- The names after renaming are the new names of the names before, in the same order. -/
theorem names_mapNames (f : QualName → QualName) (e : Expr π) :
    (e.mapNames f).names = e.names.map (Located.map f) := by
  induction e using induction_parts with
  | node e ih =>
      cases hname : e.name? with
      | some name =>
          rw [mapNames_of_some f hname, names_of_some hname, List.map_singleton]
          exact names_of_some (name?_eq_some_iff.2 rfl)
      | none =>
          rw [mapNames_of_none f hname, names_of_none hname,
            names_of_none (by rw [name?_mapParts, hname]), ExprShape.parts_mapParts,
            List.flatMap_map, List.map_flatMap]
          exact List.flatMap_congr ih

/-! ## renaming -/

/-- The name `target` for the name `source`, and any other name for itself. -/
def renameTo (source target name : QualName) : QualName := if name = source then target else name

/-- After `source` has been renamed to another name no name is `source`. -/
theorem renameTo_ne {source target : QualName} (h : source ≠ target) (name : QualName) :
    renameTo source target name ≠ source := by
  rw [renameTo]
  split
  case isTrue => exact h.symm
  case isFalse hne => exact hne

/-- Renaming is taken back by the opposite one where the new name does not occur. -/
theorem renameTo_renameTo {source target name : QualName} (h : name ≠ target) :
    renameTo target source (renameTo source target name) = name := by
  by_cases hsource : name = source
  · rw [renameTo, renameTo, if_pos hsource, if_pos rfl, hsource]
  · rw [renameTo, renameTo, if_neg hsource, if_neg h]

/-- **The visitor that renames** changes the names of identifiers and nothing else. -/
theorem rename_eq_mapNames (source target : QualName) (e : Expr π) :
    e.rename source target = e.mapNames (renameTo source target) := by
  induction e using induction_parts with
  | node e ih =>
      cases hname : e.name? with
      | some name =>
          obtain ⟨shape, span, attributes⟩ := e
          obtain rfl : shape = .ident name := name?_eq_some_iff.1 hname
          rw [mapNames_of_some _ hname, rename, visit]
          by_cases hsource : name.value = source
          · simp [Visitor.ofExpr, renamed?, renameTo, Located.map, hsource]
          · simp [Visitor.ofExpr, renamed?, renameTo, Located.map, hsource, ExprShape.visit]
      | none =>
          have hrenamed : e.renamed? source target = none := by
            obtain ⟨shape, span, attributes⟩ := e
            cases shape with
            | ident name => cases hname
            | _ => rfl
          have hvisit : e.rename source target =
              { e with shape := e.shape.mapParts (rename source target) } :=
            visit_ofExpr_pure (congrArg pure hrenamed) fun p _ => rfl
          rw [hvisit, mapNames_of_none _ hname, ExprShape.mapParts_congr ih]

/-- A visitor that does nothing leaves an expression as it is. -/
theorem visit_default (m : Type → Type) [Monad m] [LawfulMonad m] (e : Expr π) :
    e.visit (.ofExpr fun _ => pure none : Visitor m π) = pure e := by
  induction e using induction_parts with
  | node e ih =>
      obtain ⟨shape, span, attributes⟩ := e
      rw [visit_ofExpr_pure (f := id) rfl ih, ExprShape.mapParts_id]

/-- **Renaming is an exact substitution that can be taken back.** After the renaming of `source` to
another name there is no identifier `source` in an expression position. The identifiers are those
that were there, in their order and at their places, with `target` for `source`; and but for their
names the expression is the one that it was. If there was no identifier `target`, the opposite
renaming gives the expression back. A visitor that does nothing changes nothing. -/
theorem renaming_is_exact (source target : QualName) (e : Expr π) :
    (source ≠ target → ∀ (p : Expr π) (name : Located QualName),
      p.Within (e.rename source target) → p.shape = .ident name → name.value ≠ source) ∧
    (e.rename source target).names =
      e.names.map (Located.map fun name => if name = source then target else name) ∧
    (∀ name : QualName, (e.rename source target).mapNames (fun _ => name) =
      e.mapNames fun _ => name) ∧
    ((∀ (p : Expr π) (name : Located QualName),
        p.Within e → p.shape = .ident name → name.value ≠ target) →
      (e.rename source target).rename target source = e) ∧
    ∀ (m : Type → Type) [Monad m] [LawfulMonad m],
      e.visit (.ofExpr fun _ => pure none : Visitor m π) = pure e := by
  simp only [rename_eq_mapNames]
  refine ⟨fun hne p name hp hshape => ?_, names_mapNames _ e, fun name => ?_, fun htarget => ?_,
    fun m => visit_default m e⟩
  · have hmem : name ∈ (e.mapNames (renameTo source target)).names :=
      mem_names_iff.2 ⟨p, hp, hshape⟩
    rw [names_mapNames] at hmem
    obtain ⟨old, -, rfl⟩ := List.mem_map.1 hmem
    exact renameTo_ne hne old.value
  · exact mapNames_mapNames _ _ e
  · have hback : ∀ name ∈ e.names,
        (renameTo target source ∘ renameTo source target) name.value = id name.value := by
      intro name hname
      obtain ⟨p, hp, hshape⟩ := mem_names_iff.1 hname
      exact renameTo_renameTo (htarget p name hp hshape)
    rw [mapNames_mapNames, mapNames_congr hback, mapNames_id]

/-- A use of `x` in a binding, in a match, in its guard and in the case, beside a member of a module
that has this name too. -/
def guardedUse : Expr Payload :=
  .letIn .nonrecursive [.bare (.var "z" ⟨4, 5⟩) (.var "x" ⟨8, 9⟩) ⟨4, 9⟩]
    (.matchWith (.var "x" ⟨19, 20⟩)
      [⟨.any ⟨28, 29⟩, some (.var "x" ⟨35, 36⟩),
        .apply (.var "M.x" ⟨40, 43⟩) [.var "x" ⟨44, 45⟩] ⟨40, 45⟩⟩] ⟨13, 45⟩) ⟨0, 45⟩

theorem renaming_is_exact_guardedUse :
    QualName.simple "x" ≠ .simple "y" ∧
    (∀ (p : Expr Payload) (name : Located QualName), p.Within guardedUse →
      p.shape = .ident name → name.value ≠ .simple "y") ∧
    (∀ (p : Expr Payload) (name : Located QualName),
      p.Within (guardedUse.rename (.simple "x") (.simple "y")) →
      p.shape = .ident name → name.value ≠ .simple "x") ∧
    (guardedUse.rename (.simple "x") (.simple "y")).names =
      [⟨.simple "y", ⟨8, 9⟩⟩, ⟨.simple "y", ⟨19, 20⟩⟩, ⟨.simple "y", ⟨35, 36⟩⟩,
        ⟨⟨["M"], "x"⟩, ⟨40, 43⟩⟩, ⟨.simple "y", ⟨44, 45⟩⟩] ∧
    (guardedUse.rename (.simple "x") (.simple "y")).rename (.simple "y") (.simple "x") =
      guardedUse ∧
    guardedUse.visit (.ofExpr fun _ => pure none : Visitor (Except String) Payload) =
      .ok guardedUse := by
  have hne : QualName.simple "x" ≠ .simple "y" := by decide
  have hnames : guardedUse.names = [⟨.simple "x", ⟨8, 9⟩⟩, ⟨.simple "x", ⟨19, 20⟩⟩,
      ⟨.simple "x", ⟨35, 36⟩⟩, ⟨⟨["M"], "x"⟩, ⟨40, 43⟩⟩, ⟨.simple "x", ⟨44, 45⟩⟩] := rfl
  have htarget : ∀ (p : Expr Payload) (name : Located QualName), p.Within guardedUse →
      p.shape = .ident name → name.value ≠ .simple "y" := by
    intro p name hp hshape
    have hmem : name ∈ guardedUse.names := mem_names_iff.2 ⟨p, hp, hshape⟩
    have hall : ∀ name ∈ guardedUse.names, name.value ≠ .simple "y" := by
      rw [hnames]
      decide
    exact hall name hmem
  obtain ⟨hgone, hrenamed, -, hback, hdefault⟩ :=
    renaming_is_exact (.simple "x") (.simple "y") guardedUse
  refine ⟨hne, htarget, hgone hne, ?_, hback htarget, hdefault (Except String)⟩
  rw [hrenamed, hnames]
  decide

end Expr

end DeriveKit
