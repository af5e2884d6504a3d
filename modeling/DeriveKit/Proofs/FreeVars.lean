import DeriveKit.Types.FreeVars
import DeriveKit.Tree.Payload
import Mathlib.Data.List.Induction
import Mathlib.Data.List.Nodup

/-!
# DeriveKit.Proofs.FreeVars

The one pass that collects the variables of a type finds the free occurrences of variables in it, in
their order and without repetitions.

* `TypeExpr.occurrences` — all occurrences of variables in a type, each with the names that the
  quantifiers around it bind;
* `TypeExpr.collect_eraseDups` — what one pass adds to what was found before;
* `TypeExpr.freeVars_lists_free_occurrences` — the result, also as equations for each form of type.
-/

namespace DeriveKit

/-! ## first occurrences in a list -/

section

variable {α : Type} [DecidableEq α]

/-- A last element stays if it was not there before. -/
theorem eraseDups_concat (l : List α) (a : α) :
    (l ++ [a]).eraseDups = l.eraseDups ++ if a ∈ l then [] else [a] := by
  rw [List.eraseDups_append, List.removeAll]
  by_cases ha : a ∈ l <;> simp [ha, List.eraseDups_cons]

/-- Nothing occurs twice once repetitions are left out. -/
theorem nodup_eraseDups (l : List α) : l.eraseDups.Nodup := by
  induction l using List.reverseRecOn with
  | nil => exact List.nodup_nil
  | append_singleton l a ih =>
      rw [eraseDups_concat]
      by_cases ha : a ∈ l
      · rw [if_pos ha, List.append_nil]
        exact ih
      · rw [if_neg ha, List.nodup_append]
        refine ⟨ih, List.nodup_singleton a, ?_⟩
        rintro b hb _ hc rfl
        obtain rfl := List.mem_singleton.1 hc
        exact ha (List.mem_eraseDups.1 hb)

/-- Nothing is left out where nothing occurs twice. -/
theorem eraseDups_of_nodup {l : List α} (h : l.Nodup) : l.eraseDups = l := by
  induction l using List.reverseRecOn with
  | nil => rfl
  | append_singleton l a ih =>
      obtain ⟨hl, -, hnew⟩ := List.nodup_append.1 h
      have ha : a ∉ l := fun hmem => hnew a hmem a (List.mem_singleton_self a) rfl
      rw [eraseDups_concat, if_neg ha, ih hl]

/-- Leaving out repetitions and leaving out some elements may be done in either order. -/
theorem eraseDups_filter (p : α → Bool) (l : List α) :
    (l.filter p).eraseDups = l.eraseDups.filter p := by
  induction l using List.reverseRecOn with
  | nil => rfl
  | append_singleton l a ih =>
      rw [List.filter_append, eraseDups_concat, List.filter_append, ← ih]
      cases hp : p a with
      | false => by_cases ha : a ∈ l <;> simp [ha, hp]
      | true =>
          rw [List.filter_cons_of_pos hp, List.filter_nil, eraseDups_concat]
          by_cases ha : a ∈ l <;> simp [ha, hp]

/-- A list after another one adds what is new in it. -/
theorem eraseDups_append_eq_filter (l l' : List α) :
    (l ++ l').eraseDups = l.eraseDups ++ l'.eraseDups.filter fun a => !l.contains a := by
  rw [List.eraseDups_append, List.removeAll, eraseDups_filter]

/-- There are no repetitions left after the first time. -/
theorem eraseDups_eraseDups (l : List α) : l.eraseDups.eraseDups = l.eraseDups :=
  eraseDups_of_nodup (nodup_eraseDups l)

/-- Repetitions inside the parts of a list do not matter if the repetitions in the list go. -/
theorem eraseDups_flatten (ls : List (List α)) :
    (ls.map List.eraseDups).flatten.eraseDups = ls.flatten.eraseDups := by
  induction ls with
  | nil => rfl
  | cons l ls ih =>
      have hmem : (fun a => !l.eraseDups.contains a) = fun a => !l.contains a := by
        funext a
        simp [List.mem_eraseDups]
      rw [List.map_cons, List.flatten_cons, List.flatten_cons, eraseDups_append_eq_filter,
        eraseDups_append_eq_filter, eraseDups_eraseDups, ih, hmem]

/-- What is left of a list stands in the order of the first occurrences. -/
theorem pairwise_idxOf_eraseDups (l : List α) :
    l.eraseDups.Pairwise fun a b => l.idxOf a < l.idxOf b := by
  induction l using List.reverseRecOn with
  | nil => exact .nil
  | append_singleton l a ih =>
      have hold : l.eraseDups.Pairwise fun b c => (l ++ [a]).idxOf b < (l ++ [a]).idxOf c := by
        refine ih.imp_of_mem fun {b c} hb hc hlt => ?_
        rwa [List.idxOf_append_of_mem (List.mem_eraseDups.1 hb),
          List.idxOf_append_of_mem (List.mem_eraseDups.1 hc)]
      rw [eraseDups_concat]
      by_cases ha : a ∈ l
      · rwa [if_pos ha, List.append_nil]
      · rw [if_neg ha, List.pairwise_append]
        refine ⟨hold, List.pairwise_singleton _ a, fun b hb c hc => ?_⟩
        obtain rfl := List.mem_singleton.1 hc
        have hb := List.mem_eraseDups.1 hb
        rw [List.idxOf_append_of_mem hb, List.idxOf_append_of_notMem ha]
        exact Nat.lt_of_lt_of_le (List.idxOf_lt_length_of_mem hb) (Nat.le_add_right _ _)

end

/-! ## occurrences of variables -/

/-- An occurrence of a variable, and the names that the quantifiers around it bind. -/
structure Occurrence where
  name : String
  binders : List String

namespace Occurrence

/-- Whether no quantifier around the occurrence binds the variable. -/
def isFree (o : Occurrence) : Bool := !o.binders.contains o.name

/-- The occurrence under one more quantifier. -/
def under (vars : List String) (o : Occurrence) : Occurrence := ⟨o.name, vars ++ o.binders⟩

/-- The names that occur free, as often as they do. -/
def free (os : List Occurrence) : List String := (os.filter isFree).map name

@[simp] theorem free_nil : free [] = [] := rfl

/-- The free names of two lists of occurrences are those of the one and then those of the other. -/
@[simp] theorem free_append (os os' : List Occurrence) : free (os ++ os') = free os ++
    free os' := by
  rw [free, List.filter_append, List.map_append, free, free]

/-- A name is free if it occurs free somewhere. -/
theorem mem_free_iff {os : List Occurrence} {v : String} :
    v ∈ free os ↔ ∃ o ∈ os, o.isFree ∧ o.name = v := by
  simp [free, and_assoc]

/-- Under a quantifier an occurrence stays free unless the quantifier binds it. -/
theorem isFree_under (vars : List String) (o : Occurrence) :
    (o.under vars).isFree = (!vars.contains o.name && o.isFree) := by
  simp [isFree, under]

/-- A quantifier binds its variables in everything that it stands before. -/
theorem free_under (vars : List String) (os : List Occurrence) :
    free (os.map (under vars)) = (free os).filter fun v => !vars.contains v := by
  induction os with
  | nil => rfl
  | cons o os ih =>
      have hfree := isFree_under vars o
      rw [List.map_cons, free, free, List.filter_cons, List.filter_cons, hfree]
      rw [free] at ih
      cases o.isFree <;> cases hvar : vars.contains o.name <;> simp_all [free, under]

/-- Quantifying nothing changes no occurrence. -/
theorem map_under_nil (os : List Occurrence) : os.map (under []) = os := List.map_id _

/-- Two quantifiers bind what one with the variables of both does. -/
theorem map_under_under (vars vars' : List String) (os : List Occurrence) :
    (os.map (under vars')).map (under vars) = os.map (under (vars ++ vars')) := by
  rw [List.map_map]
  refine List.map_congr_left fun o _ => ?_
  simp [under]

end Occurrence

variable {π : Type}

mutual

/-- The occurrences of variables in a type, from left to right. The name of an alias comes before
what occurs in the aliased type. -/
def TypeExpr.occurrences : TypeExpr π → List Occurrence
  | ⟨.any, _, _⟩ => []
  | ⟨.var name, _, _⟩ => [⟨name, []⟩]
  | ⟨.arrow _ domain codomain, _, _⟩ =>
      TypeExpr.occurrences domain ++ TypeExpr.occurrences codomain
  | ⟨.tuple elements, _, _⟩ => TypeExpr.occurrencesAll elements
  | ⟨.constr _ args, _, _⟩ => TypeExpr.occurrencesAll args
  | ⟨.aliased body name, _, _⟩ => ⟨name.value, []⟩ :: TypeExpr.occurrences body
  | ⟨.variant rows _ _, _, _⟩ => Row.occurrencesAll rows
  | ⟨.poly vars body, _, _⟩ =>
      (TypeExpr.occurrences body).map (Occurrence.under (vars.map (·.value)))
  | ⟨.object _ _, _, _⟩ => []
  | ⟨.package _, _, _⟩ => []
  | ⟨.extension _, _, _⟩ => []

/-- The occurrences of variables in types. -/
def TypeExpr.occurrencesAll : List (TypeExpr π) → List Occurrence
  | [] => []
  | t :: rest => TypeExpr.occurrences t ++ TypeExpr.occurrencesAll rest

/-- The occurrences of variables in rows. -/
def Row.occurrencesAll : List (Row π) → List Occurrence
  | [] => []
  | ⟨.tag _ _ args, _, _⟩ :: rest => TypeExpr.occurrencesAll args ++ Row.occurrencesAll rest
  | ⟨.inherit t, _, _⟩ :: rest => TypeExpr.occurrences t ++ Row.occurrencesAll rest

end

mutual

/-- The nodes of a type from left to right, each before its parts. Nothing is said about what stands
inside an object type or an extension node. -/
def TypeExpr.nodes : TypeExpr π → List (TypeExpr π)
  | ⟨.any, span, attributes⟩ => [⟨.any, span, attributes⟩]
  | ⟨.var name, span, attributes⟩ => [⟨.var name, span, attributes⟩]
  | ⟨.arrow label domain codomain, span, attributes⟩ =>
      ⟨.arrow label domain codomain, span, attributes⟩ ::
        (TypeExpr.nodes domain ++ TypeExpr.nodes codomain)
  | ⟨.tuple elements, span, attributes⟩ =>
      ⟨.tuple elements, span, attributes⟩ :: TypeExpr.nodesAll elements
  | ⟨.constr name args, span, attributes⟩ =>
      ⟨.constr name args, span, attributes⟩ :: TypeExpr.nodesAll args
  | ⟨.aliased body name, span, attributes⟩ =>
      ⟨.aliased body name, span, attributes⟩ :: TypeExpr.nodes body
  | ⟨.variant rows openness lower, span, attributes⟩ =>
      ⟨.variant rows openness lower, span, attributes⟩ :: Row.nodesAll rows
  | ⟨.poly vars body, span, attributes⟩ =>
      ⟨.poly vars body, span, attributes⟩ :: TypeExpr.nodes body
  | ⟨.object methods openness, span, attributes⟩ => [⟨.object methods openness, span, attributes⟩]
  | ⟨.package name, span, attributes⟩ => [⟨.package name, span, attributes⟩]
  | ⟨.extension ext, span, attributes⟩ => [⟨.extension ext, span, attributes⟩]

/-- The nodes of types. -/
def TypeExpr.nodesAll : List (TypeExpr π) → List (TypeExpr π)
  | [] => []
  | t :: rest => TypeExpr.nodes t ++ TypeExpr.nodesAll rest

/-- The nodes of the types in rows. -/
def Row.nodesAll : List (Row π) → List (TypeExpr π)
  | [] => []
  | ⟨.tag _ _ args, _, _⟩ :: rest => TypeExpr.nodesAll args ++ Row.nodesAll rest
  | ⟨.inherit t, _, _⟩ :: rest => TypeExpr.nodes t ++ Row.nodesAll rest

end

namespace TypeExpr

/-- Whether the node is an object type, a module type or an extension node. -/
def isUnsupported (t : TypeExpr π) : Bool :=
  match t.shape with
  | .object _ _ | .package _ | .extension _ => true
  | _ => false

/-- Whether a type is made of nodes that have a set of variables. -/
def isPlain (t : TypeExpr π) : Bool := t.nodes.all fun u => !u.isUnsupported

/-- The names of the variables that occur free in a type, as often as they do. -/
def freeNames (t : TypeExpr π) : List String := Occurrence.free t.occurrences

end TypeExpr

/-! ## one pass -/

/-- The result of a pass over the nodes `us`: the first one without a set of variables, or what was
found, without repetitions. -/
def collected (us : List (TypeExpr π)) (names : List String) : Except (TypeExpr π) (List String) :=
  match us.find? TypeExpr.isUnsupported with
  | some u => .error u
  | none => .ok names.eraseDups

section

variable {us us' : List (TypeExpr π)} {u : TypeExpr π} {names names' : List String}

/-- Without nodes nothing is in the way of the names. -/
theorem collected_nil : collected ([] : List (TypeExpr π)) names = .ok names.eraseDups := rfl

/-- A node that is supported is passed over (`TypeExpr.isUnsupported`). -/
theorem collected_cons (h : u.isUnsupported = false) : collected (u :: us) names =
    collected us names := by
  rw [collected, List.find?_cons, h]
  rfl

/-- A pass over some nodes and then over more is one over all of them. -/
theorem collected_bind {next : List String → Except (TypeExpr π) (List String)}
    (h : next names.eraseDups = collected us' names') :
    (collected us names >>= next) = collected (us ++ us') names' := by
  rw [collected, collected, List.find?_append]
  cases us.find? TypeExpr.isUnsupported with
  | some u => rfl
  | none => exact h

end

/-- A name that is met is new, or it was found before or is bound. -/
theorem noteVar_eraseDups (bound : List String) (name : String) (xs : List String) :
    noteVar bound name xs.eraseDups =
      (xs ++ Occurrence.free [Occurrence.under bound ⟨name, []⟩]).eraseDups := by
  have hfree : Occurrence.isFree (.under bound ⟨name, []⟩) = !bound.contains name := by
    simp [Occurrence.isFree, Occurrence.under]
  rw [noteVar, Occurrence.free, List.filter_cons, hfree]
  cases hbound : bound.contains name with
  | true => simp
  | false =>
      have hconcat := eraseDups_concat xs name
      by_cases hname : name ∈ xs <;> simp_all [Occurrence.under, List.mem_eraseDups]

mutual

/-- What a pass over a type adds to the variables found before: those that occur free in it and that
no quantifier around it binds. -/
theorem TypeExpr.collect_eraseDups (bound : List String) : ∀ (t : TypeExpr π) (xs : List String),
    t.collect bound xs.eraseDups =
      collected t.nodes (xs ++ Occurrence.free (t.occurrences.map (Occurrence.under bound)))
  | ⟨.any, _, _⟩, xs => by
      rw [TypeExpr.collect, TypeExpr.nodes, TypeExpr.occurrences, collected_cons rfl, collected_nil,
        List.map_nil, Occurrence.free_nil, List.append_nil]
  | ⟨.var name, _, _⟩, xs => by
      rw [TypeExpr.collect, TypeExpr.nodes, TypeExpr.occurrences, collected_cons rfl, collected_nil,
        noteVar_eraseDups]
      rfl
  | ⟨.arrow _ domain codomain, _, _⟩, xs => by
      rw [TypeExpr.collect, TypeExpr.nodes, TypeExpr.occurrences, collected_cons rfl,
        TypeExpr.collect_eraseDups bound domain xs,
        List.map_append, Occurrence.free_append, ← List.append_assoc]
      exact collected_bind (TypeExpr.collect_eraseDups bound codomain _)
  | ⟨.tuple elements, _, _⟩, xs => by
      rw [TypeExpr.collect, TypeExpr.nodes, TypeExpr.occurrences, collected_cons rfl]
      exact TypeExpr.collectAll_eraseDups bound elements xs
  | ⟨.constr _ args, _, _⟩, xs => by
      rw [TypeExpr.collect, TypeExpr.nodes, TypeExpr.occurrences, collected_cons rfl]
      exact TypeExpr.collectAll_eraseDups bound args xs
  | ⟨.aliased body name, _, _⟩, xs => by
      rw [TypeExpr.collect, TypeExpr.nodes, TypeExpr.occurrences, collected_cons rfl,
        noteVar_eraseDups,
        TypeExpr.collect_eraseDups bound body, List.append_assoc, ← Occurrence.free_append]
      rfl
  | ⟨.variant rows _ _, _, _⟩, xs => by
      rw [TypeExpr.collect, TypeExpr.nodes, TypeExpr.occurrences, collected_cons rfl]
      exact Row.collectAll_eraseDups bound rows xs
  | ⟨.poly vars body, _, _⟩, xs => by
      rw [TypeExpr.collect, TypeExpr.nodes, TypeExpr.occurrences, collected_cons rfl,
        Occurrence.map_under_under]
      exact TypeExpr.collect_eraseDups (bound ++ vars.map (·.value)) body xs
  | ⟨.object _ _, _, _⟩, _ => rfl
  | ⟨.package _, _, _⟩, _ => rfl
  | ⟨.extension _, _, _⟩, _ => rfl

/-- One pass over several types, from the first to the last. -/
theorem TypeExpr.collectAll_eraseDups (bound : List String) :
    ∀ (ts : List (TypeExpr π)) (xs : List String), TypeExpr.collectAll bound ts xs.eraseDups =
      collected (TypeExpr.nodesAll ts)
        (xs ++ Occurrence.free ((TypeExpr.occurrencesAll ts).map (Occurrence.under bound)))
  | [], xs => by
      rw [TypeExpr.collectAll, TypeExpr.nodesAll, TypeExpr.occurrencesAll, collected_nil,
        List.map_nil, Occurrence.free_nil, List.append_nil]
  | t :: rest, xs => by
      rw [TypeExpr.collectAll, TypeExpr.nodesAll, TypeExpr.occurrencesAll,
        TypeExpr.collect_eraseDups bound t xs,
        List.map_append, Occurrence.free_append, ← List.append_assoc]
      exact collected_bind (TypeExpr.collectAll_eraseDups bound rest _)

/-- And one pass over the rows of a variant. -/
theorem Row.collectAll_eraseDups (bound : List String) :
    ∀ (rs : List (Row π)) (xs : List String), Row.collectAll bound rs xs.eraseDups =
      collected (Row.nodesAll rs)
        (xs ++ Occurrence.free ((Row.occurrencesAll rs).map (Occurrence.under bound)))
  | [], xs => by
      rw [Row.collectAll, Row.nodesAll, Row.occurrencesAll, collected_nil, List.map_nil,
        Occurrence.free_nil, List.append_nil]
  | ⟨.tag _ _ args, _, _⟩ :: rest, xs => by
      rw [Row.collectAll, Row.nodesAll, Row.occurrencesAll,
        TypeExpr.collectAll_eraseDups bound args xs,
        List.map_append, Occurrence.free_append, ← List.append_assoc]
      exact collected_bind (Row.collectAll_eraseDups bound rest _)
  | ⟨.inherit t, _, _⟩ :: rest, xs => by
      rw [Row.collectAll, Row.nodesAll, Row.occurrencesAll, TypeExpr.collect_eraseDups bound t xs,
        List.map_append, Occurrence.free_append, ← List.append_assoc]
      exact collected_bind (Row.collectAll_eraseDups bound rest _)

end

/-! ## all free variables -/

namespace TypeExpr

/-- The free variables of a type are what one pass over it collects. -/
theorem freeVars_eq_collected (t : TypeExpr π) : t.freeVars = collected t.nodes t.freeNames := by
  have hpass := collect_eraseDups [] t []
  rwa [Occurrence.map_under_nil, List.nil_append] at hpass

/-- A plain type has no unsupported node. -/
theorem find?_of_isPlain {t : TypeExpr π} (h : t.isPlain) : t.nodes.find? isUnsupported = none := by
  rw [List.find?_eq_none]
  intro u hu hunsupported
  have hsupported := List.all_eq_true.1 h u hu
  rw [hunsupported] at hsupported
  exact Bool.false_ne_true hsupported

/-- The free variables of a plain type are told. -/
theorem freeVars_of_isPlain {t : TypeExpr π} (h : t.isPlain) :
    t.freeVars = .ok t.freeNames.eraseDups := by
  rw [freeVars_eq_collected, collected, find?_of_isPlain h]

/-- Any other type is refused at the first node that is not supported. -/
theorem freeVars_of_not_plain {t : TypeExpr π} (h : t.isPlain = false) :
    ∃ u ∈ t.nodes, u.isUnsupported ∧ t.freeVars = .error u := by
  obtain ⟨v, hv, hunsupported⟩ : ∃ v ∈ t.nodes, v.isUnsupported := by
    simpa [isPlain] using h
  cases hfind : t.nodes.find? isUnsupported with
  | none => exact absurd hunsupported (List.find?_eq_none.1 hfind v hv)
  | some u =>
      refine ⟨u, List.mem_of_find?_eq_some hfind, List.find?_some hfind, ?_⟩
      rw [freeVars_eq_collected, collected, hfind]

end TypeExpr

/-! ## form by form -/

/-- The types in a row, from left to right. -/
def Row.parts : Row π → List (TypeExpr π)
  | ⟨.tag _ _ args, _, _⟩ => args
  | ⟨.inherit t, _, _⟩ => [t]

/-- The types that a form is a sequence of, unless it is a variable, binds or names one, or has no
set of variables. -/
def TypeShape.parts? : TypeShape π → Option (List (TypeExpr π))
  | .any => some []
  | .arrow _ domain codomain => some [domain, codomain]
  | .tuple elements => some elements
  | .constr _ args => some args
  | .variant rows _ _ => some (rows.flatMap Row.parts)
  | .var _ | .aliased _ _ | .poly _ _ | .object _ _ | .package _ | .extension _ => none

namespace TypeExpr

/-- Several types have the occurrences of each. -/
theorem occurrencesAll_eq_flatMap (ts : List (TypeExpr π)) :
    occurrencesAll ts = ts.flatMap occurrences := by
  induction ts with
  | nil => rfl
  | cons t ts ih => rw [occurrencesAll, ih, List.flatMap_cons]

theorem nodesAll_eq_flatMap (ts : List (TypeExpr π)) : nodesAll ts = ts.flatMap nodes := by
  induction ts with
  | nil => rfl
  | cons t ts ih => rw [nodesAll, ih, List.flatMap_cons]

end TypeExpr

/-- The occurrences in rows are those in the types that the rows have. -/
theorem Row.occurrencesAll_eq_flatMap (rs : List (Row π)) :
    Row.occurrencesAll rs = (rs.flatMap Row.parts).flatMap TypeExpr.occurrences := by
  induction rs with
  | nil => rfl
  | cons r rs ih =>
      obtain ⟨⟨⟩ | ⟨⟩, span, attributes⟩ := r <;>
        simp [Row.occurrencesAll, Row.parts, TypeExpr.occurrencesAll_eq_flatMap, ih]

theorem Row.nodesAll_eq_flatMap (rs : List (Row π)) :
    Row.nodesAll rs = (rs.flatMap Row.parts).flatMap TypeExpr.nodes := by
  induction rs with
  | nil => rfl
  | cons r rs ih =>
      obtain ⟨⟨⟩ | ⟨⟩, span, attributes⟩ := r <;>
        simp [Row.nodesAll, Row.parts, TypeExpr.nodesAll_eq_flatMap, ih]

namespace TypeExpr

variable {t : TypeExpr π} {ts : List (TypeExpr π)}

/-- A form that binds nothing has the occurrences of its parts (`TypeShape.parts?`). -/
theorem occurrences_of_parts (h : t.shape.parts? = some ts) :
    t.occurrences = ts.flatMap occurrences := by
  obtain ⟨shape, span, attributes⟩ := t
  cases shape with
  | var | aliased | poly | object | package | extension => exact absurd h nofun
  | any | arrow | tuple | constr | variant =>
      obtain rfl := Option.some.inj h
      simp [occurrences, occurrencesAll_eq_flatMap, Row.occurrencesAll_eq_flatMap]

/-- The nodes of such a form are those of its parts, and the form itself before them. -/
theorem nodes_of_parts (h : t.shape.parts? = some ts) : t.nodes = t :: ts.flatMap nodes := by
  obtain ⟨shape, span, attributes⟩ := t
  cases shape with
  | var | aliased | poly | object | package | extension => exact absurd h nofun
  | any | arrow | tuple | constr | variant =>
      obtain rfl := Option.some.inj h
      simp [nodes, nodesAll_eq_flatMap, Row.nodesAll_eq_flatMap]

/-- A form that has parts is supported. -/
theorem isUnsupported_of_parts (h : t.shape.parts? = some ts) : t.isUnsupported = false := by
  obtain ⟨shape, span, attributes⟩ := t
  cases shape with
  | var | aliased | poly | object | package | extension => exact absurd h nofun
  | any | arrow | tuple | constr | variant => rfl

/-- Passes over some types, one after the other. -/
theorem mapM_freeVars (ts : List (TypeExpr π)) :
    ts.mapM freeVars = match (ts.flatMap nodes).find? isUnsupported with
      | some u => .error u
      | none => .ok (ts.map fun t => t.freeNames.eraseDups) := by
  induction ts with
  | nil => rfl
  | cons t ts ih =>
      rw [List.mapM_cons, List.flatMap_cons, List.find?_append, freeVars_eq_collected,
        collected, ih]
      cases t.nodes.find? isUnsupported with
      | some u => rfl
      | none => cases (ts.flatMap nodes).find? isUnsupported <;> rfl

/-- The variables of a sequence are those of its parts. -/
theorem freeVars_of_parts (h : t.shape.parts? = some ts) :
    t.freeVars = (ts.mapM freeVars).map fun found => found.flatten.eraseDups := by
  have hnames : t.freeNames = (ts.map freeNames).flatten := by
    rw [freeNames, occurrences_of_parts h]
    clear h
    induction ts with
    | nil => rfl
    | cons t ts ih => rw [List.flatMap_cons, Occurrence.free_append, ih]; rfl
  rw [freeVars_eq_collected, nodes_of_parts h, collected_cons (isUnsupported_of_parts h), collected,
    mapM_freeVars, hnames]
  cases (ts.flatMap nodes).find? isUnsupported with
  | some u => rfl
  | none =>
      have hflatten := eraseDups_flatten (ts.map freeNames)
      rw [List.map_map] at hflatten
      exact congrArg Except.ok hflatten.symm

/-- A quantifier takes its variables away. -/
theorem freeVars_poly (vars : List (Located String)) (body : TypeExpr π) (span : Span)
    (attributes : List (Attribute π)) :
    freeVars ⟨.poly vars body, span, attributes⟩ =
      body.freeVars.map fun found => found.filter fun v => !(vars.map (·.value)).contains v := by
  rw [freeVars_eq_collected, freeVars_eq_collected, nodes, collected_cons rfl, freeNames,
    occurrences, Occurrence.free_under, collected, collected]
  cases body.nodes.find? isUnsupported with
  | some u => rfl
  | none => exact congrArg Except.ok (eraseDups_filter _ _)

/-- The name of an alias comes first. -/
theorem freeVars_aliased (body : TypeExpr π) (name : Located String) (span : Span)
    (attributes : List (Attribute π)) :
    freeVars ⟨.aliased body name, span, attributes⟩ =
      body.freeVars.map fun found => name.value :: found.filter fun v => v != name.value := by
  have hnames : freeNames ⟨.aliased body name, span, attributes⟩ =
    name.value :: body.freeNames := rfl
  rw [freeVars_eq_collected, freeVars_eq_collected, nodes, collected_cons rfl, hnames, collected,
    collected]
  cases body.nodes.find? isUnsupported with
  | some u => rfl
  | none =>
      show Except.ok (name.value :: body.freeNames).eraseDups = _
      rw [List.eraseDups_cons, eraseDups_filter]
      rfl

/-- The free variables of a type are the names that occur free in it, each once, in the order of
their first free occurrences; a type with a node that has no set of variables has none either. So
the variables of a sequence are those of its parts, without those that an earlier part has, a
quantifier takes its variables away, and the name of an alias comes before the other variables of
its body. -/
theorem freeVars_lists_free_occurrences (t : TypeExpr π) :
    (t.isPlain → ∃ vs, t.freeVars = .ok vs ∧ vs.Nodup ∧
      (∀ v, v ∈ vs ↔ ∃ o ∈ t.occurrences, o.isFree ∧ o.name = v) ∧
      vs.Pairwise fun v w => t.freeNames.idxOf v < t.freeNames.idxOf w) ∧
    (t.isPlain = false → ∃ u ∈ t.nodes, u.isUnsupported ∧ t.freeVars = .error u) ∧
    (∀ name, t.shape = .var name → t.freeVars = .ok [name]) ∧
    (∀ ts, t.shape.parts? = some ts →
      t.freeVars = (ts.mapM freeVars).map fun found => found.flatten.eraseDups) ∧
    (∀ vars body, t.shape = .poly vars body →
      t.freeVars =
        body.freeVars.map fun found => found.filter fun v => !(vars.map (·.value)).contains v) ∧
    (∀ body name, t.shape = .aliased body name →
      t.freeVars =
        body.freeVars.map fun found => name.value :: found.filter fun v => v != name.value) := by
  obtain ⟨shape, span, attributes⟩ := t
  refine ⟨fun h => ⟨_, freeVars_of_isPlain h, nodup_eraseDups _, fun v => ?_,
    pairwise_idxOf_eraseDups _⟩, freeVars_of_not_plain, ?_, fun ts h => freeVars_of_parts h, ?_, ?_⟩
  · rw [List.mem_eraseDups]
    exact Occurrence.mem_free_iff
  · rintro name ⟨rfl⟩
    rfl
  · rintro vars body ⟨rfl⟩
    exact freeVars_poly vars body span attributes
  · rintro body name ⟨rfl⟩
    exact freeVars_aliased body name span attributes

/-- The product `('a. 'a -> 'b) * 'a * ('b list as 'c)`, in which a name is bound in one part and
free in the next, and a product with a module type. -/
theorem freeVars_lists_free_occurrences_sibling :
    let var (name : String) : TypeExpr Payload := .var name .generated
    let body : TypeExpr Payload := .arrow (var "a") (var "b") .generated
    let quantified : TypeExpr Payload := .poly ["a"] body .generated
    let list : TypeExpr Payload := .constr (.simple "list") [var "b"] .generated
    let named : TypeExpr Payload := .aliased list "c" .generated
    let plain : TypeExpr Payload := .tuple [quantified, var "a", named] .generated
    let package : TypeExpr Payload := .bare (.package (.generated (.simple "S"))) .generated
    let other : TypeExpr Payload := .tuple [var "a", package] .generated
    (plain.isPlain ∧ plain.freeVars = .ok ["b", "a", "c"] ∧
      ∃ vs, plain.freeVars = .ok vs ∧ vs.Nodup ∧
        (∀ v, v ∈ vs ↔ ∃ o ∈ plain.occurrences, o.isFree ∧ o.name = v) ∧
        vs.Pairwise fun v w => plain.freeNames.idxOf v < plain.freeNames.idxOf w) ∧
    (other.isPlain = false ∧ ∃ u ∈ other.nodes, u.isUnsupported ∧ other.freeVars = .error u) ∧
    (var "a").freeVars = .ok ["a"] ∧
    plain.freeVars = ([quantified, var "a", named].mapM freeVars).map
      (fun found => found.flatten.eraseDups) ∧
    quantified.freeVars =
      body.freeVars.map (fun found => found.filter fun v => !(["a"].contains v)) ∧
    named.freeVars = list.freeVars.map fun found => "c" :: found.filter fun v => v != "c" := by
  intro var body quantified list named plain package other
  have hplain := freeVars_lists_free_occurrences plain
  have hother := freeVars_lists_free_occurrences other
  exact ⟨⟨rfl, rfl, hplain.1 rfl⟩, ⟨rfl, hother.2.1 rfl⟩,
    (freeVars_lists_free_occurrences (var "a")).2.2.1 "a" rfl, hplain.2.2.2.1 _ rfl,
    (freeVars_lists_free_occurrences quantified).2.2.2.2.1 _ body rfl,
    (freeVars_lists_free_occurrences named).2.2.2.2.2 list _ rfl⟩

end TypeExpr

end DeriveKit
