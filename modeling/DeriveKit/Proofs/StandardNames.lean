import DeriveKit.Types.FreeVars
import DeriveKit.Types.Standard

/-!
# DeriveKit.Proofs.StandardNames

Taking the qualification of the standard library off the type constructors of a type changes nothing
else: the type is found again from what was taken off.

* `TypeExpr.constructors` — the names of all type constructors in a type;
* `TypeExpr.requalify` — the way back;
* `TypeExpr.unqualifyStandard_eq_self` — nothing changes where no name is of the standard library;
* `TypeExpr.unqualifyStandard_is_neutral` — the result.
-/

namespace DeriveKit

/-! ## one name -/

namespace QualName

/-- The module of the standard library that qualifies the name, if nothing else does. -/
def standardModule? (n : QualName) : Option String := if n.isStandard then n.path.head? else none

/-- The name with a qualification put back in front. -/
def requalify (n : QualName) : Option String → QualName
  | some m => ⟨m :: n.path, n.last⟩
  | none => n

/-- Names of the standard library are those directly in `Stdlib` or in `Pervasives`. -/
theorem isStandard_iff {n : QualName} :
    n.isStandard = true ↔ n.path = ["Stdlib"] ∨ n.path = ["Pervasives"] := by
  simp [isStandard]

/-- Other names stay what they are. -/
theorem unqualifyStandard_of_not_isStandard {n : QualName} (h : n.isStandard = false) :
    n.unqualifyStandard = n := by
  simp [unqualifyStandard, h]

/-- No name is of the standard library after its qualification was taken off. -/
theorem isStandard_unqualifyStandard (n : QualName) : n.unqualifyStandard.isStandard = false := by
  cases h : n.isStandard with
  | false => rw [unqualifyStandard_of_not_isStandard h, h]
  | true =>
      rw [unqualifyStandard, if_pos h]
      rfl

/-- The module that was taken off a name gives the name back. -/
theorem requalify_unqualifyStandard (n : QualName) :
    n.unqualifyStandard.requalify n.standardModule? = n := by
  cases h : n.isStandard with
  | false => simp [unqualifyStandard, standardModule?, requalify, h]
  | true =>
      obtain ⟨path, last⟩ := n
      obtain rfl | rfl := isStandard_iff.1 h <;> rfl

end QualName

/-! ## all names in a type -/

variable {π : Type}

mutual

/-- The names of the type constructors in a type, from left to right. -/
def TypeExpr.constructors : TypeExpr π → List QualName
  | ⟨shape, _, _⟩ => TypeShape.constructors shape

/-- The names of the type constructors in a form of type. -/
def TypeShape.constructors : TypeShape π → List QualName
  | .any => []
  | .var _ => []
  | .arrow _ domain codomain => TypeExpr.constructors domain ++ TypeExpr.constructors codomain
  | .tuple elements => TypeExpr.constructorsAll elements
  | .constr name args => name.value :: TypeExpr.constructorsAll args
  | .object methods _ => TypeExpr.constructorsMethods methods
  | .aliased body _ => TypeExpr.constructors body
  | .variant rows _ _ => Row.constructorsAll rows
  | .poly _ body => TypeExpr.constructors body
  | .package _ => []
  | .extension _ => []

/-- The names of the type constructors in types. -/
def TypeExpr.constructorsAll : List (TypeExpr π) → List QualName
  | [] => []
  | t :: rest => TypeExpr.constructors t ++ TypeExpr.constructorsAll rest

/-- The names of the type constructors in methods. -/
def TypeExpr.constructorsMethods : List (Located String × TypeExpr π) → List QualName
  | [] => []
  | (_, t) :: rest => TypeExpr.constructors t ++ TypeExpr.constructorsMethods rest

/-- The names of the type constructors in rows. -/
def Row.constructorsAll : List (Row π) → List QualName
  | [] => []
  | ⟨.tag _ _ args, _, _⟩ :: rest => TypeExpr.constructorsAll args ++ Row.constructorsAll rest
  | ⟨.inherit t, _, _⟩ :: rest => TypeExpr.constructors t ++ Row.constructorsAll rest

end

/-- Puts the first qualification of a supply back on a name. -/
def QualName.requalifyNext (n : QualName) : StateM (List (Option String)) QualName
  | [] => (n, [])
  | m :: rest => (n.requalify m, rest)

mutual

/-- Puts qualifications back on the type constructors in a type, from left to right. -/
def TypeExpr.requalify : TypeExpr π → StateM (List (Option String)) (TypeExpr π)
  | ⟨shape, span, attributes⟩ => return ⟨← TypeShape.requalify shape, span, attributes⟩

/-- Puts qualifications back on the type constructors in a form of type. -/
def TypeShape.requalify : TypeShape π → StateM (List (Option String)) (TypeShape π)
  | .any => return .any
  | .var name => return .var name
  | .arrow label domain codomain =>
      return .arrow label (← TypeExpr.requalify domain) (← TypeExpr.requalify codomain)
  | .tuple elements => return .tuple (← TypeExpr.requalifyAll elements)
  | .constr name args =>
      return .constr ⟨← name.value.requalifyNext, name.span⟩ (← TypeExpr.requalifyAll args)
  | .object methods openness => return .object (← TypeExpr.requalifyMethods methods) openness
  | .aliased body name => return .aliased (← TypeExpr.requalify body) name
  | .variant rows openness lower => return .variant (← Row.requalifyAll rows) openness lower
  | .poly vars body => return .poly vars (← TypeExpr.requalify body)
  | .package name => return .package name
  | .extension ext => return .extension ext

/-- Puts qualifications back on the type constructors in types. -/
def TypeExpr.requalifyAll : List (TypeExpr π) → StateM (List (Option String)) (List (TypeExpr π))
  | [] => return []
  | t :: rest => return (← TypeExpr.requalify t) :: (← TypeExpr.requalifyAll rest)

/-- Puts qualifications back on the type constructors in methods. -/
def TypeExpr.requalifyMethods : List (Located String × TypeExpr π) →
    StateM (List (Option String)) (List (Located String × TypeExpr π))
  | [] => return []
  | (name, t) :: rest =>
      return (name, ← TypeExpr.requalify t) :: (← TypeExpr.requalifyMethods rest)

/-- Puts qualifications back on the type constructors in rows. -/
def Row.requalifyAll : List (Row π) → StateM (List (Option String)) (List (Row π))
  | [] => return []
  | ⟨.tag label constant args, span, attributes⟩ :: rest =>
      return ⟨.tag label constant (← TypeExpr.requalifyAll args), span, attributes⟩ ::
        (← Row.requalifyAll rest)
  | ⟨.inherit t, span, attributes⟩ :: rest =>
      return ⟨.inherit (← TypeExpr.requalify t), span, attributes⟩ :: (← Row.requalifyAll rest)

end

/-- The type with the given qualifications put back on its type constructors, from left to right. -/
def TypeExpr.requalified (t : TypeExpr π) (modules : List (Option String)) : TypeExpr π :=
  (t.requalify.run modules).1

/-- The next name uses up the next module of those that were taken off. -/
@[simp] theorem QualName.run_requalifyNext (n : QualName) (m : Option String)
    (rest : List (Option String)) : n.requalifyNext.run (m :: rest) =
    pure (n.requalify m, rest) := rfl

/-! ## every name is reached -/

mutual

/-- The type constructors of an unqualified type are those of the type, unqualified, in the same
order. -/
theorem TypeExpr.constructors_unqualifyStandard (t : TypeExpr π) :
    t.unqualifyStandard.constructors = t.constructors.map QualName.unqualifyStandard := by
  obtain ⟨shape, span, attributes⟩ := t
  exact TypeShape.constructors_unqualifyStandard shape

theorem TypeShape.constructors_unqualifyStandard (shape : TypeShape π) :
    shape.unqualifyStandard.constructors = shape.constructors.map QualName.unqualifyStandard := by
  cases shape with
  | any | var | package | extension => rfl
  | arrow label domain codomain =>
      simp [TypeShape.unqualifyStandard, TypeShape.constructors,
        TypeExpr.constructors_unqualifyStandard domain,
        TypeExpr.constructors_unqualifyStandard codomain]
  | tuple elements => exact TypeExpr.constructorsAll_unqualifyStandardAll elements
  | constr name args =>
      simp [TypeShape.unqualifyStandard, TypeShape.constructors, Located.map,
        TypeExpr.constructorsAll_unqualifyStandardAll args]
  | object methods openness => exact TypeExpr.constructorsMethods_unqualifyStandardMethods methods
  | aliased body name => exact TypeExpr.constructors_unqualifyStandard body
  | variant rows openness lower => exact Row.constructorsAll_unqualifyStandardAll rows
  | poly vars body => exact TypeExpr.constructors_unqualifyStandard body

theorem TypeExpr.constructorsAll_unqualifyStandardAll (ts : List (TypeExpr π)) :
    TypeExpr.constructorsAll (TypeExpr.unqualifyStandardAll ts) =
      (TypeExpr.constructorsAll ts).map QualName.unqualifyStandard := by
  cases ts with
  | nil => rfl
  | cons t rest =>
      simp [TypeExpr.unqualifyStandardAll, TypeExpr.constructorsAll,
        TypeExpr.constructors_unqualifyStandard t,
        TypeExpr.constructorsAll_unqualifyStandardAll rest]

theorem TypeExpr.constructorsMethods_unqualifyStandardMethods
    (methods : List (Located String × TypeExpr π)) :
    TypeExpr.constructorsMethods (TypeExpr.unqualifyStandardMethods methods) =
      (TypeExpr.constructorsMethods methods).map QualName.unqualifyStandard := by
  match methods with
  | [] => rfl
  | (name, t) :: rest =>
      simp [TypeExpr.unqualifyStandardMethods, TypeExpr.constructorsMethods,
        TypeExpr.constructors_unqualifyStandard t,
        TypeExpr.constructorsMethods_unqualifyStandardMethods rest]

theorem Row.constructorsAll_unqualifyStandardAll (rows : List (Row π)) :
    Row.constructorsAll (Row.unqualifyStandardAll rows) =
      (Row.constructorsAll rows).map QualName.unqualifyStandard := by
  match rows with
  | [] => rfl
  | ⟨.tag label constant args, span, attributes⟩ :: rest =>
      simp [Row.unqualifyStandardAll, Row.constructorsAll,
        TypeExpr.constructorsAll_unqualifyStandardAll args,
        Row.constructorsAll_unqualifyStandardAll rest]
  | ⟨.inherit t, span, attributes⟩ :: rest =>
      simp [Row.unqualifyStandardAll, Row.constructorsAll,
        TypeExpr.constructors_unqualifyStandard t, Row.constructorsAll_unqualifyStandardAll rest]

end

/-! ## every name is put back -/

-- Each part takes its own share off the supply, so the induction is for every `rest` after it.
mutual

/-- Going through an unqualified type with the modules that were taken off gives the type back and
uses up just these modules. -/
theorem TypeExpr.run_requalify_unqualifyStandard (t : TypeExpr π) (rest : List (Option String)) :
    t.unqualifyStandard.requalify.run (t.constructors.map QualName.standardModule? ++ rest) =
      pure (t, rest) := by
  obtain ⟨shape, span, attributes⟩ := t
  simp [TypeExpr.unqualifyStandard, TypeExpr.requalify, TypeExpr.constructors,
    TypeShape.run_requalify_unqualifyStandard shape]

theorem TypeShape.run_requalify_unqualifyStandard (shape : TypeShape π)
    (rest : List (Option String)) :
    shape.unqualifyStandard.requalify.run
      (shape.constructors.map QualName.standardModule? ++ rest) =
      pure (shape, rest) := by
  cases shape with
  | any | var | package | extension => rfl
  | arrow label domain codomain =>
      simp [TypeShape.unqualifyStandard, TypeShape.requalify, TypeShape.constructors,
        TypeExpr.run_requalify_unqualifyStandard domain,
        TypeExpr.run_requalify_unqualifyStandard codomain]
  | tuple elements =>
      simp [TypeShape.unqualifyStandard, TypeShape.requalify, TypeShape.constructors,
        TypeExpr.run_requalifyAll_unqualifyStandardAll elements]
  | constr name args =>
      simp [TypeShape.unqualifyStandard, TypeShape.requalify, TypeShape.constructors, Located.map,
        QualName.requalify_unqualifyStandard, TypeExpr.run_requalifyAll_unqualifyStandardAll args]
  | object methods openness =>
      simp [TypeShape.unqualifyStandard, TypeShape.requalify, TypeShape.constructors,
        TypeExpr.run_requalifyMethods_unqualifyStandardMethods methods]
  | aliased body name =>
      simp [TypeShape.unqualifyStandard, TypeShape.requalify, TypeShape.constructors,
        TypeExpr.run_requalify_unqualifyStandard body]
  | variant rows openness lower =>
      simp [TypeShape.unqualifyStandard, TypeShape.requalify, TypeShape.constructors,
        Row.run_requalifyAll_unqualifyStandardAll rows]
  | poly vars body =>
      simp [TypeShape.unqualifyStandard, TypeShape.requalify, TypeShape.constructors,
        TypeExpr.run_requalify_unqualifyStandard body]

theorem TypeExpr.run_requalifyAll_unqualifyStandardAll (ts : List (TypeExpr π))
    (rest : List (Option String)) :
    (TypeExpr.requalifyAll (TypeExpr.unqualifyStandardAll ts)).run
      ((TypeExpr.constructorsAll ts).map QualName.standardModule? ++ rest) = pure (ts, rest) := by
  match ts with
  | [] => rfl
  | t :: ts =>
      simp [TypeExpr.unqualifyStandardAll, TypeExpr.requalifyAll, TypeExpr.constructorsAll,
        TypeExpr.run_requalify_unqualifyStandard t,
        TypeExpr.run_requalifyAll_unqualifyStandardAll ts]

theorem TypeExpr.run_requalifyMethods_unqualifyStandardMethods
    (methods : List (Located String × TypeExpr π)) (rest : List (Option String)) :
    (TypeExpr.requalifyMethods (TypeExpr.unqualifyStandardMethods methods)).run
      ((TypeExpr.constructorsMethods methods).map QualName.standardModule? ++ rest) =
        pure (methods, rest) := by
  match methods with
  | [] => rfl
  | (name, t) :: methods =>
      simp [TypeExpr.unqualifyStandardMethods, TypeExpr.requalifyMethods,
        TypeExpr.constructorsMethods, TypeExpr.run_requalify_unqualifyStandard t,
        TypeExpr.run_requalifyMethods_unqualifyStandardMethods methods]

theorem Row.run_requalifyAll_unqualifyStandardAll (rows : List (Row π))
    (rest : List (Option String)) :
    (Row.requalifyAll (Row.unqualifyStandardAll rows)).run
      ((Row.constructorsAll rows).map QualName.standardModule? ++ rest) = pure (rows, rest) := by
  match rows with
  | [] => rfl
  | ⟨.tag label constant args, span, attributes⟩ :: rows =>
      simp [Row.unqualifyStandardAll, Row.requalifyAll, Row.constructorsAll,
        TypeExpr.run_requalifyAll_unqualifyStandardAll args,
        Row.run_requalifyAll_unqualifyStandardAll rows]
  | ⟨.inherit t, span, attributes⟩ :: rows =>
      simp [Row.unqualifyStandardAll, Row.requalifyAll, Row.constructorsAll,
        TypeExpr.run_requalify_unqualifyStandard t, Row.run_requalifyAll_unqualifyStandardAll rows]

end

/-! ## nothing to take off -/

mutual

/-- A type without names of the standard library stays as it is. -/
theorem TypeExpr.unqualifyStandard_eq_self (t : TypeExpr π)
    (h : ∀ n ∈ t.constructors, n.isStandard = false) : t.unqualifyStandard = t := by
  obtain ⟨shape, span, attributes⟩ := t
  rw [TypeExpr.unqualifyStandard, TypeShape.unqualifyStandard_eq_self shape h]

/-- A shape without names of the standard library stays what it is. -/
theorem TypeShape.unqualifyStandard_eq_self (shape : TypeShape π)
    (h : ∀ n ∈ shape.constructors, n.isStandard = false) : shape.unqualifyStandard = shape := by
  cases shape with
  | any | var | package | extension => rfl
  | arrow label domain codomain =>
      obtain ⟨hdomain, hcodomain⟩ := List.forall_mem_append.1 h
      rw [TypeShape.unqualifyStandard, TypeExpr.unqualifyStandard_eq_self domain hdomain,
        TypeExpr.unqualifyStandard_eq_self codomain hcodomain]
  | tuple elements =>
      rw [TypeShape.unqualifyStandard, TypeExpr.unqualifyStandardAll_eq_self elements h]
  | constr name args =>
      obtain ⟨hname, hargs⟩ := List.forall_mem_cons.1 h
      rw [TypeShape.unqualifyStandard, TypeExpr.unqualifyStandardAll_eq_self args hargs,
        Located.map, QualName.unqualifyStandard_of_not_isStandard hname]
  | object methods openness =>
      rw [TypeShape.unqualifyStandard, TypeExpr.unqualifyStandardMethods_eq_self methods h]
  | aliased body name =>
      rw [TypeShape.unqualifyStandard, TypeExpr.unqualifyStandard_eq_self body h]
  | variant rows openness lower =>
      rw [TypeShape.unqualifyStandard, Row.unqualifyStandardAll_eq_self rows h]
  | poly vars body =>
      rw [TypeShape.unqualifyStandard, TypeExpr.unqualifyStandard_eq_self body h]

theorem TypeExpr.unqualifyStandardAll_eq_self (ts : List (TypeExpr π))
    (h : ∀ n ∈ TypeExpr.constructorsAll ts, n.isStandard = false) :
    TypeExpr.unqualifyStandardAll ts = ts := by
  match ts with
  | [] => rfl
  | t :: rest =>
      obtain ⟨ht, hrest⟩ := List.forall_mem_append.1 h
      rw [TypeExpr.unqualifyStandardAll, TypeExpr.unqualifyStandard_eq_self t ht,
        TypeExpr.unqualifyStandardAll_eq_self rest hrest]

theorem TypeExpr.unqualifyStandardMethods_eq_self (methods : List (Located String × TypeExpr π))
    (h : ∀ n ∈ TypeExpr.constructorsMethods methods, n.isStandard = false) :
    TypeExpr.unqualifyStandardMethods methods = methods := by
  match methods with
  | [] => rfl
  | (name, t) :: rest =>
      obtain ⟨ht, hrest⟩ := List.forall_mem_append.1 h
      rw [TypeExpr.unqualifyStandardMethods, TypeExpr.unqualifyStandard_eq_self t ht,
        TypeExpr.unqualifyStandardMethods_eq_self rest hrest]

theorem Row.unqualifyStandardAll_eq_self (rows : List (Row π))
    (h : ∀ n ∈ Row.constructorsAll rows, n.isStandard = false) :
    Row.unqualifyStandardAll rows = rows := by
  match rows with
  | [] => rfl
  | ⟨.tag label constant args, span, attributes⟩ :: rest =>
      obtain ⟨hargs, hrest⟩ := List.forall_mem_append.1 h
      rw [Row.unqualifyStandardAll, TypeExpr.unqualifyStandardAll_eq_self args hargs,
        Row.unqualifyStandardAll_eq_self rest hrest]
  | ⟨.inherit t, span, attributes⟩ :: rest =>
      obtain ⟨ht, hrest⟩ := List.forall_mem_append.1 h
      rw [Row.unqualifyStandardAll, TypeExpr.unqualifyStandard_eq_self t ht,
        Row.unqualifyStandardAll_eq_self rest hrest]

end

/-! ## the same variables -/

/-- A map of errors passes through a bind if it passes through what comes after. -/
theorem mapError_bind {ε ε' α β : Type} {f : ε → ε'} {x : Except ε α} {g : α → Except ε β}
    {g' : α → Except ε' β} (h : ∀ a, g' a = (g a).mapError f) :
    (x.mapError f >>= g') = (x >>= g).mapError f := by
  cases x with
  | error e => rfl
  | ok a => exact h a

mutual

/-- Type variables are collected alike with and without the qualification; the type that an error
speaks of is unqualified too. -/
theorem TypeExpr.collect_unqualifyStandard (bound : List String) :
    ∀ (t : TypeExpr π) (found : List String), t.unqualifyStandard.collect bound found =
      (t.collect bound found).mapError TypeExpr.unqualifyStandard
  | ⟨.any, _, _⟩, _ => rfl
  | ⟨.var _, _, _⟩, _ => rfl
  | ⟨.arrow _ domain codomain, _, _⟩, found => by
      rw [TypeExpr.unqualifyStandard, TypeShape.unqualifyStandard, TypeExpr.collect,
        TypeExpr.collect, TypeExpr.collect_unqualifyStandard bound domain]
      exact mapError_bind (TypeExpr.collect_unqualifyStandard bound codomain)
  | ⟨.tuple elements, _, _⟩, found => TypeExpr.collectAll_unqualifyStandardAll bound elements found
  | ⟨.constr _ args, _, _⟩, found => TypeExpr.collectAll_unqualifyStandardAll bound args found
  | ⟨.aliased body name, _, _⟩, found => TypeExpr.collect_unqualifyStandard bound body _
  | ⟨.variant rows _ _, _, _⟩, found => Row.collectAll_unqualifyStandardAll bound rows found
  | ⟨.poly vars body, _, _⟩, found => TypeExpr.collect_unqualifyStandard _ body found
  | ⟨.object _ _, _, _⟩, _ => rfl
  | ⟨.package _, _, _⟩, _ => rfl
  | ⟨.extension _, _, _⟩, _ => rfl

theorem TypeExpr.collectAll_unqualifyStandardAll (bound : List String) :
    ∀ (ts : List (TypeExpr π)) (found : List String),
      TypeExpr.collectAll bound (TypeExpr.unqualifyStandardAll ts) found =
        (TypeExpr.collectAll bound ts found).mapError TypeExpr.unqualifyStandard
  | [], _ => rfl
  | t :: rest, found => by
      rw [TypeExpr.unqualifyStandardAll, TypeExpr.collectAll, TypeExpr.collectAll,
        TypeExpr.collect_unqualifyStandard bound t]
      exact mapError_bind (TypeExpr.collectAll_unqualifyStandardAll bound rest)

theorem Row.collectAll_unqualifyStandardAll (bound : List String) :
    ∀ (rows : List (Row π)) (found : List String),
      Row.collectAll bound (Row.unqualifyStandardAll rows) found =
        (Row.collectAll bound rows found).mapError TypeExpr.unqualifyStandard
  | [], _ => rfl
  | ⟨.tag _ _ args, _, _⟩ :: rest, found => by
      rw [Row.unqualifyStandardAll, Row.collectAll, Row.collectAll,
        TypeExpr.collectAll_unqualifyStandardAll bound args]
      exact mapError_bind (Row.collectAll_unqualifyStandardAll bound rest)
  | ⟨.inherit t, _, _⟩ :: rest, found => by
      rw [Row.unqualifyStandardAll, Row.collectAll, Row.collectAll,
        TypeExpr.collect_unqualifyStandard bound t]
      exact mapError_bind (Row.collectAll_unqualifyStandardAll bound rest)

end

/-! ## the result -/

namespace TypeExpr

/-- No name of the standard library is left. -/
theorem isStandard_of_mem_constructors {t : TypeExpr π} {n : QualName}
    (h : n ∈ t.unqualifyStandard.constructors) : n.isStandard = false := by
  rw [constructors_unqualifyStandard, List.mem_map] at h
  obtain ⟨n, -, rfl⟩ := h
  exact n.isStandard_unqualifyStandard

/-- The modules that were taken off give the type back. -/
theorem requalified_unqualifyStandard (t : TypeExpr π) :
    t.unqualifyStandard.requalified (t.constructors.map QualName.standardModule?) = t := by
  have hrun := t.run_requalify_unqualifyStandard []
  rw [List.append_nil] at hrun
  exact congrArg Prod.fst hrun

/-- There is nothing more to take off the second time. -/
theorem unqualifyStandard_unqualifyStandard (t : TypeExpr π) :
    t.unqualifyStandard.unqualifyStandard = t.unqualifyStandard :=
  unqualifyStandard_eq_self _ fun _ => isStandard_of_mem_constructors

/-- The qualification does not matter to the free variables of a type. -/
theorem freeVars_unqualifyStandard (t : TypeExpr π) :
    t.unqualifyStandard.freeVars = t.freeVars.mapError unqualifyStandard :=
  collect_unqualifyStandard [] t []

/-- **Only the qualification goes.** No type constructor in the result, wherever it stands, is
qualified by the standard library alone. Putting back what was taken off gives the type that it was
taken off from, taking it off again changes nothing, and the variables are the same: also an error
about them is one about the same node. -/
theorem unqualifyStandard_is_neutral (t : TypeExpr π) :
    (∀ n ∈ t.unqualifyStandard.constructors, n.path ≠ ["Stdlib"] ∧ n.path ≠ ["Pervasives"]) ∧
    t.unqualifyStandard.constructors = t.constructors.map QualName.unqualifyStandard ∧
    t.unqualifyStandard.requalified (t.constructors.map QualName.standardModule?) = t ∧
    t.unqualifyStandard.unqualifyStandard = t.unqualifyStandard ∧
    t.unqualifyStandard.freeVars = t.freeVars.mapError unqualifyStandard := by
  refine ⟨fun n hn => ?_, constructors_unqualifyStandard t, requalified_unqualifyStandard t,
    unqualifyStandard_unqualifyStandard t, freeVars_unqualifyStandard t⟩
  have hnot := isStandard_of_mem_constructors hn
  rw [Bool.eq_false_iff, Ne, QualName.isStandard_iff] at hnot
  exact not_or.1 hnot

end TypeExpr

end DeriveKit
