import DeriveKit.Proofs.Generated
import DeriveKit.Proofs.Lockstep

/-!
# DeriveKit.Proofs.Placeholders

Filling the placeholders of an expression in place. `Expr.Stands` says of a node that it is a
placeholder, and for which generator and type. If the filling succeeds and the generators make no
new placeholders (`MakesPlain`), there is none left at any depth
(`Registry.placeholders_of_fillAll`), all else is as it was (`Registry.answer_of_fillAll`), and
filling again changes nothing, with any generators (`Registry.fillAll_eq_self`).
-/

namespace DeriveKit

/-! ## what placeholders look like -/

/-- An expression is a placeholder: an extension node called after a generator, with `derive.` in
front of the name. -/
inductive Expr.Stands {π : Type} : Expr π → Placeholder π → Prop
  | mk {name : String} (hname : name ≠ "") (place : Span) (payload : π) (span : Span)
    (attributes : List (Attribute π)) :
    Stands ⟨.extension ⟨⟨"derive." ++ name, place⟩, payload⟩, span, attributes⟩
      ⟨name, payload, span⟩

/-- The name of a generator is what follows the prefix. -/
theorem placeholderName?_eq_some_iff {text name : String} :
    placeholderName? text = some name ↔ name ≠ "" ∧ text = "derive." ++ name := by
  constructor
  · intro h
    unfold placeholderName? at h
    split at h
    · next c rest htext =>
        cases h
        refine ⟨fun hempty => ?_, String.toList_injective ?_⟩
        · have hnil := congrArg String.toList hempty
          simp at hnil
        · rw [htext, String.toList_append]
          simp
    · cases h
  · rintro ⟨hname, rfl⟩
    cases hchars : name.toList with
    | nil => exact absurd (String.toList_injective hchars) hname
    | cons c rest =>
        have htext : ("derive." ++ name).toList =
            'd' :: 'e' :: 'r' :: 'i' :: 'v' :: 'e' :: '.' :: c :: rest := by
          rw [String.toList_append, hchars]
          rfl
        have hofList : String.ofList (c :: rest) = name := by rw [← hchars, String.ofList_toList]
        rw [placeholderName?, htext]
        exact congrArg some hofList

namespace Expr

variable {π : Type} {e : Expr π}

/-- The recognizer of placeholders finds exactly what stands for one (`Expr.Stands`). -/
theorem placeholder?_eq_some_iff {p : Placeholder π} : e.placeholder? = some p ↔ e.Stands p := by
  constructor
  · intro h
    obtain ⟨shape, span, attributes⟩ := e
    cases shape with
    | extension ext =>
        obtain ⟨⟨text, place⟩, payload⟩ := ext
        obtain ⟨name, hfound, rfl⟩ := Option.map_eq_some_iff.1 h
        obtain ⟨hname, htext⟩ := placeholderName?_eq_some_iff.1 hfound
        obtain rfl : text = "derive." ++ name := htext
        exact .mk hname place payload span attributes
    | _ => cases h
  · rintro ⟨hname, place, payload, span, attributes⟩
    rw [placeholder?, placeholderName?_eq_some_iff.2 ⟨hname, rfl⟩]
    rfl

/-- It finds none where nothing does. -/
theorem placeholder?_eq_none_iff : e.placeholder? = none ↔ ∀ p, ¬ e.Stands p := by
  simp only [← placeholder?_eq_some_iff, Option.eq_none_iff_forall_ne_some, ne_eq]

/-- There are no expressions inside a placeholder. -/
theorem parts_of_placeholder? (e : Expr π) (p : Placeholder π) (h : e.placeholder? = some p) :
    e.shape.parts = [] := by
  cases placeholder?_eq_some_iff.1 h
  rfl

/-- The placeholders of an expression are those at any depth. -/
theorem mem_placeholders_iff {p : Placeholder π} :
    p ∈ e.placeholders ↔ ∃ q : Expr π, q.Within e ∧ q.Stands p := by
  simp only [← placeholder?_eq_some_iff]
  exact mem_outermost_iff parts_of_placeholder?

/-- There are none if no expression inside stands for one. -/
theorem placeholders_eq_nil_iff :
    e.placeholders = [] ↔ ∀ q : Expr π, q.Within e → ∀ p, ¬ q.Stands p := by
  simp only [← placeholder?_eq_none_iff]
  exact outermost_eq_nil_iff

end Expr

/-! ## filling in place -/

/-- A step that may fail, and one that notes the first fault and then does nothing more. -/
structure Outcome.Noted {α : Type} (x : Outcome α) (y : StateM (Option Fault) α) : Prop where
  ok : ∀ a, x = .ok a → y.run none = (a, none)
  error : ∀ fault, x = .error fault → (y.run none).2 = some fault
  stopped : ∀ fault, (y.run (some fault)).2 = some fault

/-- The first of several steps that fails is the one that is noted. -/
def Outcome.noted : Lockstep Outcome (StateM (Option Fault)) where
  rel := Noted
  pure a := ⟨fun _ h => by cases h; rfl, nofun, fun _ => rfl⟩
  bind {α β x y f g} hx hf := by
    have hrun (state : Option Fault) :
        (y >>= g).run state = (g (y.run state).1).run (y.run state).2 := rfl
    refine ⟨fun b hb => ?_, fun fault hfault => ?_, fun fault => ?_⟩
    · obtain ⟨a, ha, hb⟩ := bind_eq_ok_iff.1 hb
      rw [hrun, hx.ok a ha]
      exact (hf a).ok b hb
    · obtain hfault | ⟨a, ha, hfault⟩ := bind_eq_error_iff.1 hfault
      · rw [hrun, hx.error fault hfault]
        exact (hf _).stopped fault
      · rw [hrun, hx.ok a ha]
        exact (hf a).error fault hfault
    · rw [hrun, hx.stopped fault]
      exact (hf _).stopped fault

namespace Registry

variable {r : Registry} {e out : Expr Payload}

/-- The loop notes the fault that filling one expression ends with. -/
theorem noted_fillOrNote (r : Registry) (e : Expr Payload) :
    Outcome.Noted (r.fill? e) (r.fillOrNote e) where
  ok filled h := by
    rw [fillOrNote, h]
    rfl
  error fault h := by
    rw [fillOrNote, h]
    rfl
  stopped _ := rfl

/-- Filling in place is filling, with the fault noted. -/
theorem noted_fillAll (r : Registry) (e : Expr Payload) :
    Outcome.Noted (r.fillAll e) (e.visit (.ofExpr r.fillOrNote)) :=
  Outcome.noted.visit (Visitor.related_ofExpr (noted_fillOrNote r)) e

/-- It notes no fault exactly if all were filled. -/
theorem fillUntilFault_eq_none_iff :
    r.fillUntilFault e = (out, none) ↔ r.fillAll e = .ok out := by
  have hnoted := noted_fillAll r e
  constructor
  · intro h
    cases hfill : r.fillAll e with
    | error fault =>
        have hfault : (r.fillUntilFault e).2 = some fault := hnoted.error fault hfill
        rw [h] at hfault
        cases hfault
    | ok filled =>
        have hsame : r.fillUntilFault e = (filled, none) := hnoted.ok filled hfill
        rw [h] at hsame
        cases hsame
        rfl
  · exact hnoted.ok out

/-! ## filling completely -/

/-- What stands in the place of a placeholder is what a generator makes of a type. -/
theorem inline_eq_ok_iff {name : String} {payload : Payload} {span : Span} :
    r.inline name payload span = .ok out ↔
      ∃ t g, payload.type? = some t ∧ r.lookup name = some g ∧ g.inline t = .ok out := by
  unfold inline
  constructor
  · intro h
    cases htype : payload.type? with
    | none => rw [htype] at h; cases h
    | some t =>
        cases hlookup : r.lookup name with
        | none => rw [htype, hlookup] at h; cases h
        | some g =>
            cases hmade : g.inline t with
            | error fault => simp only [htype, hlookup, hmade] at h; cases h
            | ok made =>
                simp only [htype, hlookup, hmade] at h
                exact ⟨t, g, rfl, rfl, hmade.trans h⟩
  · rintro ⟨t, g, htype, hlookup, hmade⟩
    simp only [htype, hlookup, hmade]

/-- No generator makes expressions with placeholders in them. -/
def MakesPlain (r : Registry) : Prop :=
  ∀ g ∈ r.generators, ∀ t made, g.inline t = .ok made →
    ∀ q : Expr Payload, q.Within made → ∀ p, ¬ q.Stands p

/-- An expression without placeholders is filled already. -/
theorem fillAll_eq_self (r : Registry) (h : e.placeholders = []) : r.fillAll e = .ok e := by
  rw [fillAll_eq, h, Expr.fill, Expr.replaceOutermost_eq_self _ e h]
  rfl

/-- There are answers at all placeholders of an expression that can be filled. -/
theorem answer_of_fillAll (h : r.fillAll e = .ok out) :
    (∀ p ∈ e.placeholders, p.answer r = .ok (r.put p)) ∧ out = e.fill r.put := by
  rw [fillAll_eq, Outcome.bind_pure_eq_ok_iff, Outcome.forM_eq_ok_iff] at h
  exact ⟨fun p hp => Outcome.eq_ok_valueOr _ (h.1 p hp), h.2⟩

/-- There are no placeholders left in an expression that is filled. -/
theorem placeholders_of_fillAll (hr : r.MakesPlain) (h : r.fillAll e = .ok out) :
    out.placeholders = [] := by
  obtain ⟨hanswer, rfl⟩ := answer_of_fillAll h
  refine Expr.outermost_replaceOutermost Expr.parts_of_placeholder? fun p hp => ?_
  obtain ⟨t, g, -, hlookup, hmade⟩ := inline_eq_ok_iff.1 (hanswer p hp)
  exact Expr.placeholders_eq_nil_iff.2 (hr g (mem_of_lookup hlookup) t _ hmade)

/-- **Placeholders are filled completely, and nothing else is changed.** If filling an expression in
place succeeds, and no generator makes placeholders, there are none left at any depth; the result is
the expression with what the generators named make of the types in the places of the placeholders;
and filling it again, with any generators, changes nothing. -/
theorem fills_completely (hr : r.MakesPlain) (h : r.fillUntilFault e = (out, none)) :
    (∀ q : Expr Payload, q.Within out → ∀ p, ¬ q.Stands p) ∧
    (∃ put : Placeholder Payload → Expr Payload,
      (∀ q : Expr Payload, q.Within e → ∀ p, q.Stands p →
        ∃ t g, p.payload.type? = some t ∧ r.lookup p.name = some g ∧ g.inline t = .ok (put p)) ∧
      out = e.fill put) ∧
    ∀ r' : Registry, r'.fillUntilFault out = (out, none) := by
  have hfill := fillUntilFault_eq_none_iff.1 h
  have hnone := placeholders_of_fillAll hr hfill
  obtain ⟨hanswer, hout⟩ := answer_of_fillAll hfill
  refine ⟨Expr.placeholders_eq_nil_iff.1 hnone, ⟨r.put, fun q hq p hp => ?_, hout⟩, fun r' => ?_⟩
  · exact inline_eq_ok_iff.1 (hanswer p (Expr.mem_placeholders_iff.2 ⟨q, hq, hp⟩))
  · exact fillUntilFault_eq_none_iff.2 (fillAll_eq_self r' hnone)

/-- The generator that says what it was asked makes texts. -/
theorem echoRegistry_makesPlain : echoRegistry.MakesPlain := by
  intro g hg t made hmade q hq p hp
  obtain rfl : g = .echo "echo" := List.mem_singleton.1 hg
  cases hmade
  cases hq with
  | self => cases hp
  | part hpart => cases hpart

/-- A placeholder in the guard of a case and another one in the default of a parameter. -/
def guardedMatch : Expr Payload :=
  .function
    [⟨.any ⟨1, 2⟩, some echoPlaceholder,
      .bare (.lambda (.optional "x") (some echoPlaceholder) (.any ⟨3, 4⟩) (.unit ⟨5, 6⟩)) ⟨3, 6⟩⟩]
    ⟨1, 6⟩

theorem fills_completely_guardedMatch :
    ∃ out, echoRegistry.fillUntilFault guardedMatch = (out, none) ∧
      ∀ r' : Registry, r'.fillUntilFault out = (out, none) :=
  ⟨_, rfl, (fills_completely (e := guardedMatch) echoRegistry_makesPlain rfl).2.2⟩

end Registry

end DeriveKit
