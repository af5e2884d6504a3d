import DeriveKit.Naming.Affix
import Mathlib.Data.List.Nodup

/-!
# DeriveKit.Proofs.DerivedNames

Types with different names get different derived names. The name of a type that is written out makes
the derived name longer than the affix alone, by an underscore at least (`length_nameFor`), so it
cannot be taken for the one of the type that disappears, whatever the affix is; and two names that
are both written out stand between the same texts (`nameFor_injective`).
-/

namespace DeriveKit

namespace Affix

variable {π : Type}

/-- The name of a type that does not disappear is written in full, with an underscore. -/
theorem length_nameFor (affix : Affix) (collapsed name : String) :
    (affix.nameFor collapsed name).length =
      (affix.nameFor collapsed collapsed).length +
        if name = collapsed then 0 else name.length + 1 := by
  by_cases h : name = collapsed
  · rw [h, if_pos rfl, Nat.add_zero]
  · have hname : (name == collapsed) = false := beq_false_of_ne h
    have hself : (collapsed == collapsed) = true := beq_self_eq_true collapsed
    have hunderscore : "_".length = 1 := rfl
    rw [if_neg h]
    cases affix <;> simp only [nameFor, hname, hself, String.length_append, hunderscore] <;> omega

/-- Names that are written in full stand between the same texts. -/
theorem eq_of_nameFor_eq {affix : Affix} {collapsed name name' : String}
    (hname : name ≠ collapsed) (hname' : name' ≠ collapsed)
    (h : affix.nameFor collapsed name = affix.nameFor collapsed name') : name = name' := by
  cases affix with
  | before front =>
      simp only [nameFor, beq_false_of_ne hname, beq_false_of_ne hname'] at h
      exact (String.append_right_inj _).1 h
  | after back =>
      simp only [nameFor, beq_false_of_ne hname, beq_false_of_ne hname', String.append_assoc] at h
      exact (String.append_left_inj _).1 h
  | around front back =>
      simp only [nameFor, beq_false_of_ne hname, beq_false_of_ne hname', String.append_assoc] at h
      have hrest := (String.append_right_inj _).1 ((String.append_right_inj _).1 h)
      exact (String.append_left_inj _).1 hrest

/-- The derived names of two types are equal only if their names are, whatever name it is that
disappears. -/
theorem nameFor_injective (affix : Affix) (collapsed : String) :
    Function.Injective (affix.nameFor collapsed) := by
  intro name name' h
  have hlength := congrArg String.length h
  rw [length_nameFor, length_nameFor affix collapsed name', Nat.add_left_cancel_iff] at hlength
  by_cases hname : name = collapsed
  · by_cases hname' : name' = collapsed
    · rw [hname, hname']
    · rw [if_pos hname, if_neg hname'] at hlength
      omega
  · by_cases hname' : name' = collapsed
    · rw [if_neg hname, if_pos hname'] at hlength
      omega
    · exact eq_of_nameFor_eq hname hname' h

/-- The usual derived name, for which the type `t` disappears (`Affix.name`), tells types apart. -/
theorem name_injective (affix : Affix) : Function.Injective affix.name :=
  affix.nameFor_injective mainTypeName

/-- Derived qualified names tell types apart as well, since the modules of the type stay as they
are. -/
theorem qualName_injective (affix : Affix) : Function.Injective affix.qualName := by
  rintro ⟨path, last⟩ ⟨path', last'⟩ h
  obtain ⟨hpath, hlast⟩ := QualName.mk.inj h
  obtain rfl : path = path' := hpath
  obtain rfl : last = last' := affix.name_injective hlast
  rfl

/-- Declarations get the same derived name exactly if they have the same name. -/
theorem declName_eq_iff {affix : Affix} {decl decl' : TypeDecl π} :
    affix.declName decl = affix.declName decl' ↔ decl.name.value = decl'.name.value :=
  affix.name_injective.eq_iff

/-- **Different types get different derived names.** An affix gives different names to any two
names, whichever name it is that disappears. So it does to qualified names, which it leaves in their
module, and to declarations: what a generator defines for a group has different names exactly if the
declarations of the group have. -/
theorem derived_names_are_different (affix : Affix) :
    (∀ collapsed, Function.Injective (affix.nameFor collapsed)) ∧
    (Function.Injective affix.qualName ∧ ∀ type, (affix.qualName type).path = type.path) ∧
    (∀ decl decl' : TypeDecl π,
      affix.declName decl = affix.declName decl' ↔ decl.name.value = decl'.name.value) ∧
    ∀ decls : List (TypeDecl π),
      (decls.map affix.declName).Nodup ↔ (decls.map fun decl => decl.name.value).Nodup := by
  refine ⟨affix.nameFor_injective, ⟨affix.qualName_injective, fun _ => rfl⟩,
    fun _ _ => declName_eq_iff, fun decls => ?_⟩
  have hmap : decls.map affix.declName =
      (decls.map fun decl => decl.name.value).map affix.name := by
    rw [List.map_map]
    rfl
  rw [hmap, List.nodup_map_iff affix.name_injective]

end Affix

end DeriveKit
