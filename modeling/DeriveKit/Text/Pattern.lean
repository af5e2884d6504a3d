import DeriveKit.Text.Type

/-!
# DeriveKit.Text.Pattern

Source text of patterns, given the text of payloads. The pattern of a non-empty list is written with
an infix sign instead of a constructor and a pair (`Pattern.renderCons?`), whatever attributes the
pair has. `QualName.isCons` and `QualName.isNil` are the tests for the two constructors of lists.
-/

namespace DeriveKit

/-- Whether the name is that of the constructor of non-empty lists. -/
def QualName.isCons (n : QualName) : Bool := !n.isQualified && n.last == "::"

/-- Whether the name is that of the constructor of the empty list. -/
def QualName.isNil (n : QualName) : Bool := !n.isQualified && n.last == "[]"

/-- The test for the constructor of non-empty lists is equality with its name without modules. -/
theorem QualName.isCons_iff {n : QualName} : n.isCons ↔ n = .simple "::" := by
  obtain ⟨path, last⟩ := n
  simp [isCons, isQualified, simple]

/-- The test for the constructor of the empty list is equality with its name without modules. -/
theorem QualName.isNil_iff {n : QualName} : n.isNil ↔ n = .simple "[]" := by
  obtain ⟨path, last⟩ := n
  simp [isNil, isQualified, simple]

/-- What follows the fields of a record pattern that leaves some out. -/
def Openness.recordText : Openness → String
  | .closed => ""
  | .extensible => "; _"

variable {π : Type}

mutual

/-- Source text of a pattern; `nested` if something stands directly before it. -/
def Pattern.render (pay : π → String) (nested : Bool) : Pattern π → String
  | ⟨shape, _, []⟩ => PatternShape.render pay nested shape
  | ⟨shape, _, a :: rest⟩ =>
      "(" ++ PatternShape.render pay false shape ++ Attribute.renderAll pay "@" (a :: rest) ++ ")"

/-- Source text of a form of pattern. -/
def PatternShape.render (pay : π → String) (nested : Bool) : PatternShape π → String
  | .any => "_"
  | .var name => name.value
  | .aliased pattern name => "(" ++ Pattern.render pay false pattern ++ " as " ++ name.value ++ ")"
  | .constant value => parens (nested && value.isNegative) value.text
  | .tuple elements => "(" ++ joinWith ", " (Pattern.renderAll pay elements) ++ ")"
  | .construct name none => name.value.text
  | .construct name (some arg) =>
      match name.value.isCons, Pattern.renderCons? pay arg with
      | true, some s => parens nested s
      | _, _ => parens nested (name.value.text ++ " " ++ Pattern.render pay true arg)
  | .variant tag none => "`" ++ tag
  | .variant tag (some arg) => parens nested ("`" ++ tag ++ " " ++ Pattern.render pay true arg)
  | .record fields openness =>
      "\x7b " ++ joinWith "; " (Pattern.renderFields pay fields) ++ openness.recordText ++ " \x7d"
  | .either left right =>
      "(" ++ Pattern.render pay false left ++ " | " ++ Pattern.render pay false right ++ ")"
  | .constraint pattern type =>
      "(" ++ Pattern.render pay false pattern ++ " : " ++ type.render pay .top ++ ")"

/-- Source text of a head and a tail, if the pattern is a pair of them. -/
def Pattern.renderCons? (pay : π → String) : Pattern π → Option String
  | ⟨.tuple [head, tail], _, _⟩ =>
      some (Pattern.render pay true head ++ " :: " ++ Pattern.render pay false tail)
  | _ => none

/-- Source texts of patterns. -/
def Pattern.renderAll (pay : π → String) : List (Pattern π) → List String
  | [] => []
  | p :: rest => Pattern.render pay false p :: Pattern.renderAll pay rest

/-- Source texts of the fields of a record pattern. -/
def Pattern.renderFields (pay : π → String) : List (Located QualName × Pattern π) → List String
  | [] => []
  | (label, p) :: rest =>
      (label.value.text ++ " = " ++ Pattern.render pay false p) :: Pattern.renderFields pay rest

end

attribute [grind =] Pattern.render PatternShape.render

theorem Pattern.renderAll_eq_map (pay : π → String) (ps : List (Pattern π)) :
    Pattern.renderAll pay ps = ps.map (Pattern.render pay false) := by
  induction ps with
  | nil => rfl
  | cons p ps ih => rw [Pattern.renderAll, ih, List.map_cons]

theorem Pattern.renderFields_eq_map (pay : π → String)
    (fields : List (Located QualName × Pattern π)) :
    Pattern.renderFields pay fields =
      fields.map fun f => f.1.value.text ++ " = " ++ Pattern.render pay false f.2 := by
  induction fields with
  | nil => rfl
  | cons f fields ih => rw [Pattern.renderFields, ih, List.map_cons]

end DeriveKit
