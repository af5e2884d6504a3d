import DeriveKit.Tree.Traverse
import DeriveKit.Wire.Payload

/-!
# DeriveKit.Proofs.WireUniform

Trees are written in one way, whatever their payloads are: to visit the payloads of a tree and then
write it is to write the tree with what the visit makes of each payload. The lemmas
`encode_traverse` say so, one for each kind of tree, and `PayloadShape.encode_traverse` for the
first level of a payload.

A payload is kept as an outline and what fills it, and the writer goes down one level after the
other. That payloads inside payloads are written as payloads are follows by taking the outline and
what fills it together again (`Payload.encode_ofShape`).
-/

namespace DeriveKit

variable {π ρ : Type} (enc : ρ → Data) (f : π → Id ρ)

/-! ## attributes and extension nodes -/

/-- The payload of an attribute is all that a visit changes of it, so writing it afterwards writes
what the visit made of the payload. -/
theorem Attribute.encode_traverse (a : Attribute π) :
    Attribute.encode enc (Id.run (a.traverse f)) = a.encode fun p => enc (Id.run (f p)) := rfl

/-- Attributes are visited and written one by one. -/
theorem Attribute.encodeAll_traverseAll (attributes : List (Attribute π)) :
    Attribute.encodeAll enc (Id.run (Attribute.traverseAll f attributes)) =
      Attribute.encodeAll (fun p => enc (Id.run (f p))) attributes := by
  induction attributes with
  | nil => rfl
  | cons a rest ih =>
      rw [encodeAll, encodeAll, Data.ofList, Data.ofList, Data.list.injEq] at ih
      simp [traverseAll, encodeAll, Data.ofList, encode_traverse, ih]

/-- So it is with the payload of an extension node. -/
theorem Extension.encode_traverse (ext : Extension π) :
    Extension.encode enc (Id.run (ext.traverse f)) = ext.encode fun p => enc (Id.run (f p)) := rfl

/-! ## types -/

mutual

/-- A type is written with what the visit makes of the payloads in its form and in its
attributes. -/
theorem TypeExpr.encode_traverse : (t : TypeExpr π) →
    TypeExpr.encode enc (Id.run (t.traverse f)) = t.encode fun p => enc (Id.run (f p))
  | ⟨shape, span, attributes⟩ => by
      simp [TypeExpr.traverse, TypeExpr.encode, TypeShape.encode_traverse shape,
        Attribute.encodeAll_traverseAll]

/-- Each form of type is visited where it is written: part by part, in one order. -/
theorem TypeShape.encode_traverse : (s : TypeShape π) →
    TypeShape.encode enc (Id.run (s.traverse f)) = s.encode fun p => enc (Id.run (f p))
  | .any | .var _ | .package _ => rfl
  | .arrow label domain codomain => by
      simp [TypeShape.traverse, TypeShape.encode, TypeExpr.encode_traverse domain,
        TypeExpr.encode_traverse codomain]
  | .tuple elements => by
      simp [TypeShape.traverse, TypeShape.encode, TypeExpr.encodeItems_traverseAll elements]
  | .constr name args => by
      simp [TypeShape.traverse, TypeShape.encode, TypeExpr.encodeItems_traverseAll args]
  | .object methods openness => by
      simp [TypeShape.traverse, TypeShape.encode, TypeExpr.encodeMethods_traverseMethods methods]
  | .aliased body name => by
      simp [TypeShape.traverse, TypeShape.encode, TypeExpr.encode_traverse body]
  | .variant rows openness lower => by
      simp [TypeShape.traverse, TypeShape.encode, Row.encodeItems_traverseAll rows]
  | .poly vars body => by
      simp [TypeShape.traverse, TypeShape.encode, TypeExpr.encode_traverse body]
  | .extension ext => by
      simp [TypeShape.traverse, TypeShape.encode, Extension.encode_traverse]

/-- The parts of a product or the arguments of a constructor. -/
theorem TypeExpr.encodeItems_traverseAll : (ts : List (TypeExpr π)) →
    TypeExpr.encodeItems enc (Id.run (TypeExpr.traverseAll f ts)) =
      TypeExpr.encodeItems (fun p => enc (Id.run (f p))) ts
  | [] => rfl
  | t :: rest => by
      simp [TypeExpr.traverseAll, TypeExpr.encodeItems, TypeExpr.encode_traverse t,
        TypeExpr.encodeItems_traverseAll rest]

/-- The methods of an object type: their names hold no payloads. -/
theorem TypeExpr.encodeMethods_traverseMethods : (methods : List (Located String × TypeExpr π)) →
    TypeExpr.encodeMethods enc (Id.run (TypeExpr.traverseMethods f methods)) =
      TypeExpr.encodeMethods (fun p => enc (Id.run (f p))) methods
  | [] => rfl
  | (name, t) :: rest => by
      simp [TypeExpr.traverseMethods, TypeExpr.encodeMethods, TypeExpr.encode_traverse t,
        TypeExpr.encodeMethods_traverseMethods rest]

/-- The rows of a variant, which have attributes of their own. -/
theorem Row.encode_traverse : (r : Row π) →
    Row.encode enc (Id.run (r.traverse f)) = r.encode fun p => enc (Id.run (f p))
  | ⟨.tag label constant args, span, attributes⟩ => by
      simp [Row.traverse, Row.encode, RowShape.encode, TypeExpr.encodeItems_traverseAll args,
        Attribute.encodeAll_traverseAll]
  | ⟨.inherit t, span, attributes⟩ => by
      simp [Row.traverse, Row.encode, RowShape.encode, TypeExpr.encode_traverse t,
        Attribute.encodeAll_traverseAll]

theorem Row.encodeItems_traverseAll : (rows : List (Row π)) →
    Row.encodeItems enc (Id.run (Row.traverseAll f rows)) =
      Row.encodeItems (fun p => enc (Id.run (f p))) rows
  | [] => rfl
  | r :: rest => by
      simp [Row.traverseAll, Row.encodeItems, Row.encode_traverse r,
        Row.encodeItems_traverseAll rest]

end

/-! ## patterns and expressions -/

mutual

/-- Patterns are written with what the visit makes of their payloads. -/
theorem Pattern.encode_traverse : (p : Pattern π) →
    Pattern.encode enc (Id.run (p.traverse f)) = p.encode fun p => enc (Id.run (f p))
  | ⟨shape, span, attributes⟩ => by
      simp [Pattern.traverse, Pattern.encode, PatternShape.encode_traverse shape,
        Attribute.encodeAll_traverseAll]

/-- Each form of pattern is visited where it is written. -/
theorem PatternShape.encode_traverse : (s : PatternShape π) →
    PatternShape.encode enc (Id.run (s.traverse f)) = s.encode fun p => enc (Id.run (f p))
  | .any | .var _ | .constant _ => rfl
  | .aliased pattern name => by
      simp [PatternShape.traverse, PatternShape.encode, Pattern.encode_traverse pattern]
  | .tuple elements => by
      simp [PatternShape.traverse, PatternShape.encode, Pattern.encodeItems_traverseAll elements]
  | .construct name arg | .variant name arg => by
      simp [PatternShape.traverse, PatternShape.encode, Pattern.encodeOption_traverseOption arg]
  | .record fields openness => by
      simp [PatternShape.traverse, PatternShape.encode, Pattern.encodeFields_traverseFields fields]
  | .either left right => by
      simp [PatternShape.traverse, PatternShape.encode, Pattern.encode_traverse left,
        Pattern.encode_traverse right]
  | .constraint pattern type => by
      simp [PatternShape.traverse, PatternShape.encode, Pattern.encode_traverse pattern,
        TypeExpr.encode_traverse]

theorem Pattern.encodeItems_traverseAll : (ps : List (Pattern π)) →
    Pattern.encodeItems enc (Id.run (Pattern.traverseAll f ps)) =
      Pattern.encodeItems (fun p => enc (Id.run (f p))) ps
  | [] => rfl
  | p :: rest => by
      simp [Pattern.traverseAll, Pattern.encodeItems, Pattern.encode_traverse p,
        Pattern.encodeItems_traverseAll rest]

/-- The argument of a constructor or a tag, if it has one. -/
theorem Pattern.encodeOption_traverseOption : (p : Option (Pattern π)) →
    Pattern.encodeOption enc (Id.run (Pattern.traverseOption f p)) =
      Pattern.encodeOption (fun p => enc (Id.run (f p))) p
  | none => rfl
  | some p => by simp [Pattern.traverseOption, Pattern.encodeOption, Pattern.encode_traverse p]

/-- The fields of a record pattern. -/
theorem Pattern.encodeFields_traverseFields : (fields : List (Located QualName × Pattern π)) →
    Pattern.encodeFields enc (Id.run (Pattern.traverseFields f fields)) =
      Pattern.encodeFields (fun p => enc (Id.run (f p))) fields
  | [] => rfl
  | (label, p) :: rest => by
      simp [Pattern.traverseFields, Pattern.encodeFields, Pattern.encode_traverse p,
        Pattern.encodeFields_traverseFields rest]

end

/-- An opening holds payloads in its attributes only. -/
theorem OpenDecl.encode_traverse (decl : OpenDecl π) :
    OpenDecl.encode enc (Id.run (decl.traverse f)) = decl.encode fun p => enc (Id.run (f p)) := by
  simp [traverse, encode, Attribute.encodeAll_traverseAll]

mutual

/-- Expressions are written with what the visit makes of their payloads. -/
theorem Expr.encode_traverse : (e : Expr π) →
    Expr.encode enc (Id.run (e.traverse f)) = e.encode fun p => enc (Id.run (f p))
  | ⟨shape, span, attributes⟩ => by
      simp [Expr.traverse, Expr.encode, ExprShape.encode_traverse shape,
        Attribute.encodeAll_traverseAll]

/-- Each form of expression is visited where it is written. This is the longest of the families; the
forms differ in how many parts they have and in nothing else. -/
theorem ExprShape.encode_traverse : (s : ExprShape π) →
    ExprShape.encode enc (Id.run (s.traverse f)) = s.encode fun p => enc (Id.run (f p))
  | .ident _ | .constant _ => rfl
  | .letIn recursion bindings body => by
      simp [ExprShape.traverse, ExprShape.encode, Binding.encodeItems_traverseAll bindings,
        Expr.encode_traverse body]
  | .function cases => by
      simp [ExprShape.traverse, ExprShape.encode, Case.encodeItems_traverseAll cases]
  | .lambda label default param body => by
      simp [ExprShape.traverse, ExprShape.encode, Expr.encodeOption_traverseOption default,
        Pattern.encode_traverse, Expr.encode_traverse body]
  | .apply callee args => by
      simp [ExprShape.traverse, ExprShape.encode, Expr.encode_traverse callee,
        Expr.encodeArgs_traverseArgs args]
  | .matchWith scrutinee cases => by
      simp [ExprShape.traverse, ExprShape.encode, Expr.encode_traverse scrutinee,
        Case.encodeItems_traverseAll cases]
  | .tuple elements => by
      simp [ExprShape.traverse, ExprShape.encode, Expr.encodeItems_traverseAll elements]
  | .construct name arg | .variant name arg => by
      simp [ExprShape.traverse, ExprShape.encode, Expr.encodeOption_traverseOption arg]
  | .record fields base => by
      simp [ExprShape.traverse, ExprShape.encode, Expr.encodeFields_traverseFields fields,
        Expr.encodeOption_traverseOption base]
  | .field record label => by
      simp [ExprShape.traverse, ExprShape.encode, Expr.encode_traverse record]
  | .ifThenElse condition onTrue onFalse => by
      simp [ExprShape.traverse, ExprShape.encode, Expr.encode_traverse condition,
        Expr.encode_traverse onTrue, Expr.encodeOption_traverseOption onFalse]
  | .sequence first second => by
      simp [ExprShape.traverse, ExprShape.encode, Expr.encode_traverse first,
        Expr.encode_traverse second]
  | .constraint expr type => by
      simp [ExprShape.traverse, ExprShape.encode, Expr.encode_traverse expr,
        TypeExpr.encode_traverse]
  | .openIn decl body => by
      simp [ExprShape.traverse, ExprShape.encode, OpenDecl.encode_traverse,
        Expr.encode_traverse body]
  | .extension ext => by
      simp [ExprShape.traverse, ExprShape.encode, Extension.encode_traverse]

theorem Expr.encodeItems_traverseAll : (es : List (Expr π)) →
    Expr.encodeItems enc (Id.run (Expr.traverseAll f es)) =
      Expr.encodeItems (fun p => enc (Id.run (f p))) es
  | [] => rfl
  | e :: rest => by
      simp [Expr.traverseAll, Expr.encodeItems, Expr.encode_traverse e,
        Expr.encodeItems_traverseAll rest]

/-- A part that may be absent: a default, a guard, the base of a record. -/
theorem Expr.encodeOption_traverseOption : (e : Option (Expr π)) →
    Expr.encodeOption enc (Id.run (Expr.traverseOption f e)) =
      Expr.encodeOption (fun p => enc (Id.run (f p))) e
  | none => rfl
  | some e => by simp [Expr.traverseOption, Expr.encodeOption, Expr.encode_traverse e]

/-- Arguments are visited behind their labels. -/
theorem Expr.encodeArgs_traverseArgs : (args : List (ArgLabel × Expr π)) →
    Expr.encodeArgs enc (Id.run (Expr.traverseArgs f args)) =
      Expr.encodeArgs (fun p => enc (Id.run (f p))) args
  | [] => rfl
  | (label, e) :: rest => by
      simp [Expr.traverseArgs, Expr.encodeArgs, Expr.encode_traverse e,
        Expr.encodeArgs_traverseArgs rest]

theorem Expr.encodeFields_traverseFields : (fields : List (Located QualName × Expr π)) →
    Expr.encodeFields enc (Id.run (Expr.traverseFields f fields)) =
      Expr.encodeFields (fun p => enc (Id.run (f p))) fields
  | [] => rfl
  | (label, e) :: rest => by
      simp [Expr.traverseFields, Expr.encodeFields, Expr.encode_traverse e,
        Expr.encodeFields_traverseFields rest]

/-- A case is visited pattern first, then guard, then body. -/
theorem Case.encode_traverse : (c : Case π) →
    Case.encode enc (Id.run (c.traverse f)) = c.encode fun p => enc (Id.run (f p))
  | ⟨pattern, guard, body⟩ => by
      simp [Case.traverse, Case.encode, Pattern.encode_traverse,
        Expr.encodeOption_traverseOption guard, Expr.encode_traverse body]

theorem Case.encodeItems_traverseAll : (cases : List (Case π)) →
    Case.encodeItems enc (Id.run (Case.traverseAll f cases)) =
      Case.encodeItems (fun p => enc (Id.run (f p))) cases
  | [] => rfl
  | c :: rest => by
      simp [Case.traverseAll, Case.encodeItems, Case.encode_traverse c,
        Case.encodeItems_traverseAll rest]

/-- A binding is visited pattern first; its attributes come last. -/
theorem Binding.encode_traverse : (b : Binding π) →
    Binding.encode enc (Id.run (b.traverse f)) = b.encode fun p => enc (Id.run (f p))
  | ⟨pattern, expr, attributes, span⟩ => by
      simp [Binding.traverse, Binding.encode, Pattern.encode_traverse, Expr.encode_traverse expr,
        Attribute.encodeAll_traverseAll]

theorem Binding.encodeItems_traverseAll : (bs : List (Binding π)) →
    Binding.encodeItems enc (Id.run (Binding.traverseAll f bs)) =
      Binding.encodeItems (fun p => enc (Id.run (f p))) bs
  | [] => rfl
  | b :: rest => by
      simp [Binding.traverseAll, Binding.encodeItems, Binding.encode_traverse b,
        Binding.encodeItems_traverseAll rest]

end

/-! ## declarations -/

/-- Writing the members of a list after changing each is changing how each is written. -/
theorem Data.ofList_map {α β : Type} (item : β → Data) (g : α → β) (l : List α) :
    ofList item (l.map g) = ofList (fun a => item (g a)) l := by
  rw [ofList, List.map_map]
  rfl

/-- The types of a declaration are written by `Data.ofList` and not by recursion of their own. -/
theorem TypeExpr.ofList_encode_traverseAll (types : List (TypeExpr π)) :
    Data.ofList (encode enc) (Id.run (traverseAll f types)) =
      .ofList (encode fun p => enc (Id.run (f p))) types := by
  induction types with
  | nil => rfl
  | cons t rest ih =>
      rw [Data.ofList, Data.ofList, Data.list.injEq] at ih
      simp [traverseAll, Data.ofList, encode_traverse, ih]

/-- So is a type that may be absent: a manifest, or the result of a constructor. -/
theorem TypeExpr.ofOption_encode_traverseOption (type : Option (TypeExpr π)) :
    Data.ofOption (encode enc) (Id.run (traverseOption f type)) =
      .ofOption (encode fun p => enc (Id.run (f p))) type := by
  cases type with
  | none => rfl
  | some t => simp [traverseOption, Data.ofOption, encode_traverse]

/-- And the bindings of an item. -/
theorem Binding.ofList_encode_traverseAll (bindings : List (Binding π)) :
    Data.ofList (encode enc) (Id.run (traverseAll f bindings)) =
      .ofList (encode fun p => enc (Id.run (f p))) bindings := by
  induction bindings with
  | nil => rfl
  | cons b rest ih =>
      rw [Data.ofList, Data.ofList, Data.list.injEq] at ih
      simp [traverseAll, Data.ofList, encode_traverse, ih]

/-- Declarations are made of types, so from here on nothing recurses. -/
theorem TypeParam.encode_traverse (param : TypeParam π) :
    TypeParam.encode enc (Id.run (param.traverse f)) =
      param.encode fun p => enc (Id.run (f p)) := by
  simp [traverse, encode, TypeExpr.encode_traverse]

theorem Label.encode_traverse (label : Label π) :
    Label.encode enc (Id.run (label.traverse f)) = label.encode fun p => enc (Id.run (f p)) := by
  simp [traverse, encode, TypeExpr.encode_traverse, Attribute.encodeAll_traverseAll]

/-- What a constructor takes, as a tuple or as a record. -/
theorem ConstructorArgs.encode_traverse (args : ConstructorArgs π) :
    ConstructorArgs.encode enc (Id.run (args.traverse f)) =
      args.encode fun p => enc (Id.run (f p)) := by
  cases args with
  | tuple types => simp [traverse, encode, TypeExpr.ofList_encode_traverseAll]
  | record labels => simp [traverse, encode, Data.ofList_map, Label.encode_traverse]

theorem Constructor.encode_traverse (c : Constructor π) :
    Constructor.encode enc (Id.run (c.traverse f)) = c.encode fun p => enc (Id.run (f p)) := by
  simp [traverse, encode, ConstructorArgs.encode_traverse, TypeExpr.ofOption_encode_traverseOption,
    Attribute.encodeAll_traverseAll]

/-- The body of a declaration, of any kind. -/
theorem TypeBody.encode_traverse (body : TypeBody π) :
    TypeBody.encode enc (Id.run (body.traverse f)) = body.encode fun p => enc (Id.run (f p)) := by
  cases body with
  | abstract | extensible => rfl
  | variant constructors => simp [traverse, encode, Data.ofList_map, Constructor.encode_traverse]
  | record labels => simp [traverse, encode, Data.ofList_map, Label.encode_traverse]

/-- A whole declaration: parameters, body and manifest. -/
theorem TypeDecl.encode_traverse (decl : TypeDecl π) :
    TypeDecl.encode enc (Id.run (decl.traverse f)) = decl.encode fun p => enc (Id.run (f p)) := by
  simp [traverse, encode, Data.ofList_map, TypeParam.encode_traverse, TypeBody.encode_traverse,
    TypeExpr.ofOption_encode_traverseOption, Attribute.encodeAll_traverseAll]

theorem AddedBody.encode_traverse (body : AddedBody π) :
    AddedBody.encode enc (Id.run (body.traverse f)) = body.encode fun p => enc (Id.run (f p)) := by
  cases body with
  | declared args result =>
      simp [traverse, encode, ConstructorArgs.encode_traverse,
        TypeExpr.ofOption_encode_traverseOption]
  | rebound name => rfl

theorem AddedConstructor.encode_traverse (c : AddedConstructor π) :
    AddedConstructor.encode enc (Id.run (c.traverse f)) = c.encode fun p => enc (Id.run (f p)) := by
  simp [traverse, encode, AddedBody.encode_traverse, Attribute.encodeAll_traverseAll]

/-- A type extension, with all constructors that it adds. -/
theorem TypeExtension.encode_traverse (ext : TypeExtension π) :
    TypeExtension.encode enc (Id.run (ext.traverse f)) =
      ext.encode fun p => enc (Id.run (f p)) := by
  simp [traverse, encode, Data.ofList_map, TypeParam.encode_traverse,
    AddedConstructor.encode_traverse, Attribute.encodeAll_traverseAll]

/-- The declaration of a value, whose primitives hold no payloads. -/
theorem ValueDecl.encode_traverse (decl : ValueDecl π) :
    ValueDecl.encode enc (Id.run (decl.traverse f)) = decl.encode fun p => enc (Id.run (f p)) := by
  simp [traverse, encode, TypeExpr.encode_traverse, Attribute.encodeAll_traverseAll]

/-! ## modules -/

mutual

/-- Items of structures, and with them everything that may stand in one. -/
theorem StructureItem.encode_traverse : (item : StructureItem π) →
    StructureItem.encode enc (Id.run (item.traverse f)) = item.encode fun p => enc (Id.run (f p))
  | ⟨shape, span⟩ => by
      simp [StructureItem.traverse, StructureItem.encode, StructureShape.encode_traverse shape]

/-- Each form of item is visited where it is written. -/
theorem StructureShape.encode_traverse : (s : StructureShape π) →
    StructureShape.encode enc (Id.run (s.traverse f)) = s.encode fun p => enc (Id.run (f p))
  | .eval expr attributes => by
      simp [StructureShape.traverse, StructureShape.encode, Expr.encode_traverse,
        Attribute.encodeAll_traverseAll]
  | .value recursion bindings => by
      simp [StructureShape.traverse, StructureShape.encode, Binding.ofList_encode_traverseAll]
  | .primitive decl => by
      simp [StructureShape.traverse, StructureShape.encode, ValueDecl.encode_traverse]
  | .types recursion decls => by
      simp [StructureShape.traverse, StructureShape.encode, Data.ofList_map,
        TypeDecl.encode_traverse]
  | .extend ext => by
      simp [StructureShape.traverse, StructureShape.encode, TypeExtension.encode_traverse]
  | .module binding => by
      simp [StructureShape.traverse, StructureShape.encode, ModuleBinding.encode_traverse binding]
  | .recModules bindings => by
      simp [StructureShape.traverse, StructureShape.encode,
        ModuleBinding.encodeItems_traverseAll bindings]
  | .moduleType decl => by
      simp [StructureShape.traverse, StructureShape.encode, ModuleTypeDecl.encode_traverse decl]
  | .openModule decl => by
      simp [StructureShape.traverse, StructureShape.encode, OpenDecl.encode_traverse]
  | .include module attributes => by
      simp [StructureShape.traverse, StructureShape.encode, ModuleExpr.encode_traverse module,
        Attribute.encodeAll_traverseAll]
  | .attribute attr => by
      simp [StructureShape.traverse, StructureShape.encode, Attribute.encode_traverse]
  | .extension ext attributes => by
      simp [StructureShape.traverse, StructureShape.encode, Extension.encode_traverse,
        Attribute.encodeAll_traverseAll]

theorem StructureItem.encodeItems_traverseAll : (items : List (StructureItem π)) →
    StructureItem.encodeItems enc (Id.run (StructureItem.traverseAll f items)) =
      StructureItem.encodeItems (fun p => enc (Id.run (f p))) items
  | [] => rfl
  | item :: rest => by
      simp [StructureItem.traverseAll, StructureItem.encodeItems,
        StructureItem.encode_traverse item, StructureItem.encodeItems_traverseAll rest]

/-- Items of signatures. -/
theorem SignatureItem.encode_traverse : (item : SignatureItem π) →
    SignatureItem.encode enc (Id.run (item.traverse f)) = item.encode fun p => enc (Id.run (f p))
  | ⟨shape, span⟩ => by
      simp [SignatureItem.traverse, SignatureItem.encode, SignatureShape.encode_traverse shape]

/-- Each form of item of a signature is visited where it is written. -/
theorem SignatureShape.encode_traverse : (s : SignatureShape π) →
    SignatureShape.encode enc (Id.run (s.traverse f)) = s.encode fun p => enc (Id.run (f p))
  | .value decl => by
      simp [SignatureShape.traverse, SignatureShape.encode, ValueDecl.encode_traverse]
  | .types recursion decls => by
      simp [SignatureShape.traverse, SignatureShape.encode, Data.ofList_map,
        TypeDecl.encode_traverse]
  | .extend ext => by
      simp [SignatureShape.traverse, SignatureShape.encode, TypeExtension.encode_traverse]
  | .module decl => by
      simp [SignatureShape.traverse, SignatureShape.encode, ModuleDecl.encode_traverse decl]
  | .recModules decls => by
      simp [SignatureShape.traverse, SignatureShape.encode,
        ModuleDecl.encodeItems_traverseAll decls]
  | .moduleType decl => by
      simp [SignatureShape.traverse, SignatureShape.encode, ModuleTypeDecl.encode_traverse decl]
  | .openModule decl => by
      simp [SignatureShape.traverse, SignatureShape.encode, OpenDecl.encode_traverse]
  | .include type attributes => by
      simp [SignatureShape.traverse, SignatureShape.encode, ModuleType.encode_traverse type,
        Attribute.encodeAll_traverseAll]
  | .attribute attr => by
      simp [SignatureShape.traverse, SignatureShape.encode, Attribute.encode_traverse]
  | .extension ext attributes => by
      simp [SignatureShape.traverse, SignatureShape.encode, Extension.encode_traverse,
        Attribute.encodeAll_traverseAll]

theorem SignatureItem.encodeItems_traverseAll : (items : List (SignatureItem π)) →
    SignatureItem.encodeItems enc (Id.run (SignatureItem.traverseAll f items)) =
      SignatureItem.encodeItems (fun p => enc (Id.run (f p))) items
  | [] => rfl
  | item :: rest => by
      simp [SignatureItem.traverseAll, SignatureItem.encodeItems,
        SignatureItem.encode_traverse item, SignatureItem.encodeItems_traverseAll rest]

/-- Module expressions. -/
theorem ModuleExpr.encode_traverse : (e : ModuleExpr π) →
    ModuleExpr.encode enc (Id.run (e.traverse f)) = e.encode fun p => enc (Id.run (f p))
  | ⟨shape, span, attributes⟩ => by
      simp [ModuleExpr.traverse, ModuleExpr.encode, ModuleExprShape.encode_traverse shape,
        Attribute.encodeAll_traverseAll]

/-- Each form of module expression is visited where it is written. -/
theorem ModuleExprShape.encode_traverse : (s : ModuleExprShape π) →
    ModuleExprShape.encode enc (Id.run (s.traverse f)) = s.encode fun p => enc (Id.run (f p))
  | .ident _ => rfl
  | .structure items => by
      simp [ModuleExprShape.traverse, ModuleExprShape.encode,
        StructureItem.encodeItems_traverseAll items]
  | .functor param body => by
      simp [ModuleExprShape.traverse, ModuleExprShape.encode, FunctorParam.encode_traverse param,
        ModuleExpr.encode_traverse body]
  | .apply functor arg => by
      simp [ModuleExprShape.traverse, ModuleExprShape.encode, ModuleExpr.encode_traverse functor,
        ModuleExpr.encode_traverse arg]
  | .constraint module type => by
      simp [ModuleExprShape.traverse, ModuleExprShape.encode, ModuleExpr.encode_traverse module,
        ModuleType.encode_traverse type]
  | .extension ext => by
      simp [ModuleExprShape.traverse, ModuleExprShape.encode, Extension.encode_traverse]

/-- Module types. -/
theorem ModuleType.encode_traverse : (t : ModuleType π) →
    ModuleType.encode enc (Id.run (t.traverse f)) = t.encode fun p => enc (Id.run (f p))
  | ⟨shape, span, attributes⟩ => by
      simp [ModuleType.traverse, ModuleType.encode, ModuleTypeShape.encode_traverse shape,
        Attribute.encodeAll_traverseAll]

/-- Each form of module type is visited where it is written. -/
theorem ModuleTypeShape.encode_traverse : (s : ModuleTypeShape π) →
    ModuleTypeShape.encode enc (Id.run (s.traverse f)) = s.encode fun p => enc (Id.run (f p))
  | .ident _ | .aliased _ => rfl
  | .signature items => by
      simp [ModuleTypeShape.traverse, ModuleTypeShape.encode,
        SignatureItem.encodeItems_traverseAll items]
  | .functor param body => by
      simp [ModuleTypeShape.traverse, ModuleTypeShape.encode, FunctorParam.encode_traverse param,
        ModuleType.encode_traverse body]
  | .extension ext => by
      simp [ModuleTypeShape.traverse, ModuleTypeShape.encode, Extension.encode_traverse]

theorem ModuleType.encodeOption_traverseOption : (t : Option (ModuleType π)) →
    ModuleType.encodeOption enc (Id.run (ModuleType.traverseOption f t)) =
      ModuleType.encodeOption (fun p => enc (Id.run (f p))) t
  | none => rfl
  | some t => by
      simp [ModuleType.traverseOption, ModuleType.encodeOption, ModuleType.encode_traverse t]

/-- The parameter of a functor holds payloads in its module type only. -/
theorem FunctorParam.encode_traverse : (p : FunctorParam π) →
    FunctorParam.encode enc (Id.run (p.traverse f)) = p.encode fun p => enc (Id.run (f p))
  | .unit => rfl
  | .named name type => by
      simp [FunctorParam.traverse, FunctorParam.encode, ModuleType.encode_traverse type]

/-- A module with its name. -/
theorem ModuleBinding.encode_traverse : (b : ModuleBinding π) →
    ModuleBinding.encode enc (Id.run (b.traverse f)) = b.encode fun p => enc (Id.run (f p))
  | ⟨name, body, attributes, span⟩ => by
      simp [ModuleBinding.traverse, ModuleBinding.encode, ModuleExpr.encode_traverse body,
        Attribute.encodeAll_traverseAll]

theorem ModuleBinding.encodeItems_traverseAll : (bs : List (ModuleBinding π)) →
    ModuleBinding.encodeItems enc (Id.run (ModuleBinding.traverseAll f bs)) =
      ModuleBinding.encodeItems (fun p => enc (Id.run (f p))) bs
  | [] => rfl
  | b :: rest => by
      simp [ModuleBinding.traverseAll, ModuleBinding.encodeItems, ModuleBinding.encode_traverse b,
        ModuleBinding.encodeItems_traverseAll rest]

/-- A declared module with its name. -/
theorem ModuleDecl.encode_traverse : (d : ModuleDecl π) →
    ModuleDecl.encode enc (Id.run (d.traverse f)) = d.encode fun p => enc (Id.run (f p))
  | ⟨name, type, attributes, span⟩ => by
      simp [ModuleDecl.traverse, ModuleDecl.encode, ModuleType.encode_traverse type,
        Attribute.encodeAll_traverseAll]

theorem ModuleDecl.encodeItems_traverseAll : (ds : List (ModuleDecl π)) →
    ModuleDecl.encodeItems enc (Id.run (ModuleDecl.traverseAll f ds)) =
      ModuleDecl.encodeItems (fun p => enc (Id.run (f p))) ds
  | [] => rfl
  | d :: rest => by
      simp [ModuleDecl.traverseAll, ModuleDecl.encodeItems, ModuleDecl.encode_traverse d,
        ModuleDecl.encodeItems_traverseAll rest]

/-- A declared module type, which may be abstract. -/
theorem ModuleTypeDecl.encode_traverse : (d : ModuleTypeDecl π) →
    ModuleTypeDecl.encode enc (Id.run (d.traverse f)) = d.encode fun p => enc (Id.run (f p))
  | ⟨name, type, attributes, span⟩ => by
      simp [ModuleTypeDecl.traverse, ModuleTypeDecl.encode,
        ModuleType.encodeOption_traverseOption type, Attribute.encodeAll_traverseAll]

end

/-! ## payloads -/

/-- One level of payload, of any kind. This is what `Payload.encode_ofShape` needs of all the lemmas
before. -/
theorem PayloadShape.encode_traverse : (s : PayloadShape π) →
    PayloadShape.encode enc (Id.run (s.traverse f)) = s.encode fun p => enc (Id.run (f p))
  | .structure items => by simp [traverse, encode, StructureItem.encodeItems_traverseAll]
  | .signature items => by simp [traverse, encode, SignatureItem.encodeItems_traverseAll]
  | .type t => by simp [traverse, encode, TypeExpr.encode_traverse]
  | .pattern p guard => by
      simp [traverse, encode, Pattern.encode_traverse, Expr.encodeOption_traverseOption]

/-- A payload is written as its first level is, with the payloads in it written as payloads. -/
theorem Payload.encode_ofShape (s : PayloadShape Payload) :
    (ofShape s).encode = s.encode Payload.encode := by
  rw [encode, fold_ofShape]
  exact s.encode_traverse id fun p => pure (fold (PayloadShape.encode id) p)

end DeriveKit
