import DeriveKit.Proofs.Flags

/-!
# DeriveKit.Proofs.Transparent

Patterns and expressions of which the text shows all attributes (`Pattern.isTransparent`,
`Expr.isTransparent`). They hold no attributes but flags, and no extension nodes with anything after
the name, where trees of all kinds may stand. They are made of forms that the text shows:

* in a pattern no pair of a head and a tail has attributes, since the infix sign does not show them;
* in an expression no pair in a list literal has attributes (`ExprShape.hiddenAttributes`), since
  the literal does not show them. A pair that is written before no list has its attributes shown,
  behind the constructor of lists.

A word is a leaf (`isLeaf`) if it cannot be taken for brackets or for the beginning of an attribute,
and an expression is headed (`Expr.isHeaded`) if its first word is not made of what stands before a
pair.
-/

namespace DeriveKit

/-! ## forms that the text shows -/

/-- Whether a text does not begin as an attribute does, nor as one does after its bracket. -/
def isMild (t : String) : Bool := clash "@".toList t.toList && clash "[@".toList t.toList

/-- Whether a word cannot be taken for opening brackets or for the beginning of an attribute. -/
def isLeaf (w : String) : Bool := isSolid false w && isMild w

/-- A leaf cannot be taken for a text in brackets. -/
theorem isSolid_of_isLeaf {w : String} (h : isLeaf w) : isSolid false w :=
    (Bool.and_eq_true _ _ ▸ h).1

/-- A leaf cannot be taken for the beginning of an attribute. -/
theorem isMild_of_isLeaf {w : String} (h : isLeaf w) : isMild w := (Bool.and_eq_true _ _ ▸ h).2

/-- In the wide view a leaf must be headed, too. -/
theorem isSolid_of_headed {wide : Bool} {w : String} (h : isLeaf w)
    (hheaded : wide = true → isSolid true w) : isSolid wide w := by
  cases wide with
  | true => exact hheaded rfl
  | false => exact isSolid_of_isLeaf h

/-- What a text begins with decides whether it is mild. -/
theorem isMild_append {t : String} (h : isMild t) (u : String) : isMild (t ++ u) := by
  rw [isMild, Bool.and_eq_true] at h ⊢
  rw [String.toList_append]
  exact ⟨clash_append h.1 _, clash_append h.2 _⟩

/-- A list is no attribute if its first element does not begin as one after its bracket. -/
theorem isMild_bracket {t : String} (h : isMild t) : isMild ("[" ++ t) := by
  rw [isMild, Bool.and_eq_true] at h ⊢
  rw [String.toList_append]
  exact ⟨rfl, h.1⟩

/-- Whether a pattern is a tuple of two. -/
def Pattern.isPair (p : Pattern Payload) : Bool :=
  match p.shape with
  | .tuple [_, _] => true
  | _ => false

mutual

/-- Whether the text of a pattern shows its attributes: they are flags, words are leaves, and a pair
of a head and a tail has no attributes of its own. -/
def Pattern.isTransparent : Pattern Payload → Bool
  | ⟨shape, _, attributes⟩ => attributes.all Attribute.isFlag && PatternShape.isTransparent shape

/-- Whether the text of a form of pattern shows the attributes inside it. -/
def PatternShape.isTransparent : PatternShape Payload → Bool
  | .any | .variant _ none => true
  | .var name => isLeaf name.value
  | .constant value => isLeaf value.text
  | .aliased p _ | .variant _ (some p) => Pattern.isTransparent p
  | .tuple elements => Pattern.allTransparent elements
  | .construct name none => isLeaf name.value.text
  | .construct name (some arg) =>
      isLeaf name.value.text && (!(name.value.isCons && arg.isPair) || arg.attributes.isEmpty) &&
        Pattern.isTransparent arg
  | .record fields _ => Pattern.fieldsTransparent fields
  | .either left right => Pattern.isTransparent left && Pattern.isTransparent right
  | .constraint p type => Pattern.isTransparent p && type.isFlagged

/-- Whether the texts of some patterns show their attributes. -/
def Pattern.allTransparent : List (Pattern Payload) → Bool
  | [] => true
  | p :: rest => Pattern.isTransparent p && Pattern.allTransparent rest

/-- Whether the texts of the fields of a pattern show their attributes. -/
def Pattern.fieldsTransparent : List (Located QualName × Pattern Payload) → Bool
  | [] => true
  | (_, p) :: rest => Pattern.isTransparent p && Pattern.fieldsTransparent rest

end

/-- Whether an expression is a tuple of two. -/
def Expr.isPair (e : Expr Payload) : Bool :=
  match e.shape with
  | .tuple [_, _] => true
  | _ => false

/-- The attributes of the pairs in a form that is written as a list literal. The text does not show
them, unless there are attributes of the list itself. -/
def ExprShape.hiddenAttributes {π : Type} (shape : ExprShape π) : List (Attribute π) :=
  (spineAttributes? shape).getD []
where
  /-- The attributes of the pairs, if the form is that of a list literal. -/
  spineAttributes? : ExprShape π → Option (List (Attribute π))
    | .construct name none => if name.value.isNil then some [] else none
    | .construct name (some ⟨.tuple [_, ⟨tail, _, []⟩], _, attributes⟩) =>
        if name.value.isCons then (spineAttributes? tail).map (attributes ++ ·) else none
    | _ => none

mutual

/-- Whether the first word of an expression is more than what stands before a pair. -/
def Expr.isHeaded : Expr Payload → Bool
  | ⟨shape, _, _⟩ => ExprShape.isHeaded shape

/-- Whether the first word of a form of expression is more than what stands before a pair. Most
forms begin with a keyword, and some with a part. -/
def ExprShape.isHeaded : ExprShape Payload → Bool
  | .ident name | .construct name none => isSolid true name.value.text
  | .constant value => isSolid true value.text
  | .construct name (some arg) =>
      if name.value.isCons && arg.isPair then Expr.isHeaded arg else isSolid true name.value.text
  | .apply first _ | .field first _ | .sequence first _ | .constraint first _
  | .tuple (first :: _) => Expr.isHeaded first
  | .letIn .. | .function _ | .lambda .. | .matchWith .. | .tuple [] | .variant .. | .record ..
  | .ifThenElse .. | .openIn .. | .extension _ => true

end

/-- Whether an argument may be left out. -/
def ArgLabel.isOptional : ArgLabel → Bool
  | .optional _ => true
  | .positional | .labelled _ => false

mutual

/-- Whether the text of an expression shows its attributes: they are flags, words are leaves, and
the pairs in a list literal have no attributes of their own. -/
def Expr.isTransparent : Expr Payload → Bool
  | ⟨shape, _, attributes⟩ =>
      attributes.all Attribute.isFlag &&
        (!attributes.isEmpty || shape.hiddenAttributes.isEmpty) && ExprShape.isTransparent shape

/-- Whether the text of a form of expression shows the attributes inside it. A function that is
applied has arguments, only a parameter that may be left out has a default, and a pair of a head and
a tail has no attributes unless its head is told from what stands before it. -/
def ExprShape.isTransparent : ExprShape Payload → Bool
  | .ident name => isLeaf name.value.text
  | .constant value => isLeaf value.text
  | .letIn _ bindings body => Binding.allTransparent bindings && Expr.isTransparent body
  | .function cases => Case.allTransparent cases
  | .lambda label default param body =>
      (label.isOptional || default.isNone) && Expr.optionTransparent default &&
        (param.isTransparent && Expr.isTransparent body)
  | .apply function args =>
      !args.isEmpty && (Expr.isTransparent function && Expr.argsTransparent args)
  | .matchWith scrutinee cases => Expr.isTransparent scrutinee && Case.allTransparent cases
  | .tuple elements => Expr.allTransparent elements
  | .construct name none => isLeaf name.value.text
  | .construct name (some arg) =>
      isLeaf name.value.text &&
        (!(name.value.isCons && arg.isPair) || arg.attributes.isEmpty || arg.isHeaded) &&
        Expr.isTransparent arg
  | .variant _ arg => Expr.optionTransparent arg
  | .record fields base => Expr.fieldsTransparent fields && Expr.optionTransparent base
  | .field record _ => Expr.isTransparent record
  | .ifThenElse condition onTrue onFalse =>
      Expr.isTransparent condition && (Expr.isTransparent onTrue && Expr.optionTransparent onFalse)
  | .sequence first second => Expr.isTransparent first && Expr.isTransparent second
  | .constraint expr type => Expr.isTransparent expr && type.isFlagged
  | .openIn decl body => decl.attributes.all Attribute.isFlag && Expr.isTransparent body
  | .extension ext => ext.isFlag

/-- Whether the texts of some expressions show their attributes. -/
def Expr.allTransparent : List (Expr Payload) → Bool
  | [] => true
  | e :: rest => Expr.isTransparent e && Expr.allTransparent rest

/-- Whether the text of an expression that may be absent shows its attributes. -/
def Expr.optionTransparent : Option (Expr Payload) → Bool
  | none => true
  | some e => Expr.isTransparent e

/-- Whether the texts of some arguments show their attributes. -/
def Expr.argsTransparent : List (ArgLabel × Expr Payload) → Bool
  | [] => true
  | (_, e) :: rest => Expr.isTransparent e && Expr.argsTransparent rest

/-- Whether the texts of the fields of a record show their attributes. -/
def Expr.fieldsTransparent : List (Located QualName × Expr Payload) → Bool
  | [] => true
  | (_, e) :: rest => Expr.isTransparent e && Expr.fieldsTransparent rest

/-- Whether the texts of some cases show their attributes. -/
def Case.allTransparent : List (Case Payload) → Bool
  | [] => true
  | ⟨pattern, guard, body⟩ :: rest =>
      pattern.isTransparent && (Expr.optionTransparent guard && Expr.isTransparent body) &&
        Case.allTransparent rest

/-- Whether the texts of some bindings show their attributes. -/
def Binding.allTransparent : List (Binding Payload) → Bool
  | [] => true
  | ⟨pattern, expr, attributes, _⟩ :: rest =>
      pattern.isTransparent && (Expr.isTransparent expr && attributes.all Attribute.isFlag) &&
        Binding.allTransparent rest

end

end DeriveKit
