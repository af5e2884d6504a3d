import DeriveKit.Proofs.WireTree
import DeriveKit.Wire.Module

/-!
# DeriveKit.Proofs.WireModule

Reading what was written in the exchange format, for declarations, items, module expressions and
module types over payloads that are read back. Declarations hold no items, so one bound does for all
their parts (`TypeDecl.decode_encode`, `TypeExtension.decode_encode`); items and module expressions
hold each other, and each lemma passes to the parts with a smaller bound
(`StructureItem.decode_encode`, `ModuleExpr.decode_encode`).
-/

namespace DeriveKit

variable {π : Type} (fmt : PayloadFormat π)

/-! ## declarations -/

section Declarations

variable {n : Nat} (hn : n ≤ fmt.bound)

include hn

/-- The parameter of a type is read back with its variance. -/
theorem TypeParam.decode_encode (param : TypeParam π) (h : (param.encode fmt.encode).depth ≤ n) :
    TypeParam.decode fmt.decode n (param.encode fmt.encode) = some param := by
  simp only [encode, Data.depth, Data.depthMembers] at h
  simp [encode, decode, TypeExpr.decode_encode fmt param.type n hn (by omega)]

/-- A label is read back with its flag and its type. -/
theorem Label.decode_encode (label : Label π) (h : (label.encode fmt.encode).depth ≤ n) :
    Label.decode fmt.decode n (label.encode fmt.encode) = some label := by
  simp only [encode, Data.depth, Data.depthMembers] at h
  simp [encode, decode, TypeExpr.decode_encode fmt label.type n hn (by omega),
    Attribute.decodeAll_encodeAll fmt label.attributes (by omega)]

/-- A list of types is read back. -/
theorem TypeExpr.list?_decode_ofList (types : List (TypeExpr π))
    (h : (Data.ofList (TypeExpr.encode fmt.encode) types).depth ≤ n + 1) :
    Data.list? (TypeExpr.decode fmt.decode n) (.ofList (TypeExpr.encode fmt.encode) types) =
      some types :=
  Data.list?_ofList fun t ht => decode_encode fmt t n hn (Data.depth_ofList_le_iff.1 h t ht)

/-- A type that may be absent is read back. -/
theorem TypeExpr.option?_decode_ofOption (type : Option (TypeExpr π))
    (h : (Data.ofOption (TypeExpr.encode fmt.encode) type).depth ≤ n) :
    Data.option? (TypeExpr.decode fmt.decode n) (.ofOption (TypeExpr.encode fmt.encode) type) =
      some type := by
  refine Data.option?_ofOption (fun t => ?_) fun t ht => ?_
  · cases t
    exact nofun
  · cases ht
    exact decode_encode fmt t n hn h

/-- The labels of a record are read one by one. -/
theorem Label.list?_decode_ofList (labels : List (Label π))
    (h : (Data.ofList (Label.encode fmt.encode) labels).depth ≤ n + 1) :
    Data.list? (Label.decode fmt.decode n) (.ofList (Label.encode fmt.encode) labels) =
      some labels :=
  Data.list?_ofList fun l hl => decode_encode fmt hn l (Data.depth_ofList_le_iff.1 h l hl)

theorem TypeParam.list?_decode_ofList (params : List (TypeParam π))
    (h : (Data.ofList (TypeParam.encode fmt.encode) params).depth ≤ n + 1) :
    Data.list? (TypeParam.decode fmt.decode n) (.ofList (TypeParam.encode fmt.encode) params) =
      some params :=
  Data.list?_ofList fun p hp => decode_encode fmt hn p (Data.depth_ofList_le_iff.1 h p hp)

/-- What a constructor takes is read back as it was written: a tuple stays one, and so does a
record. -/
theorem ConstructorArgs.decode_encode (args : ConstructorArgs π)
    (h : (args.encode fmt.encode).depth ≤ n) :
    ConstructorArgs.decode fmt.decode n (args.encode fmt.encode) = some args := by
  cases args with
  | tuple types =>
      rw [encode, Data.depth_choice] at h
      simp [encode, decode, TypeExpr.list?_decode_ofList fmt hn types (by omega)]
  | record labels =>
      rw [encode, Data.depth_choice] at h
      simp [encode, decode, Label.list?_decode_ofList fmt hn labels (by omega)]

/-- A constructor is read back, with its result if it has one. -/
theorem Constructor.decode_encode (c : Constructor π) (h : (c.encode fmt.encode).depth ≤ n) :
    Constructor.decode fmt.decode n (c.encode fmt.encode) = some c := by
  simp only [encode, Data.depth, Data.depthMembers] at h
  simp [encode, decode, ConstructorArgs.decode_encode fmt hn c.args (by omega),
    TypeExpr.option?_decode_ofOption fmt hn c.result (by omega),
    Attribute.decodeAll_encodeAll fmt c.attributes (by omega)]

/-- The body of a declaration is read back. -/
theorem TypeBody.decode_encode (body : TypeBody π) (h : (body.encode fmt.encode).depth ≤ n) :
    TypeBody.decode fmt.decode n (body.encode fmt.encode) = some body := by
  cases body with
  | abstract | extensible => simp [encode, decode]
  | variant constructors =>
      rw [encode, Data.depth_choice] at h
      have hlist : Data.list? (Constructor.decode fmt.decode n)
          (.ofList (Constructor.encode fmt.encode) constructors) = some constructors :=
        Data.list?_ofList fun c hc =>
          Constructor.decode_encode fmt hn c (Data.depth_ofList_le_iff.1 (by omega) c hc)
      simp [encode, decode, hlist]
  | record labels =>
      rw [encode, Data.depth_choice] at h
      simp [encode, decode, Label.list?_decode_ofList fmt hn labels (by omega)]

/-- **Type declarations are read back**, every field of theirs. -/
theorem TypeDecl.decode_encode (decl : TypeDecl π) (h : (decl.encode fmt.encode).depth ≤ n) :
    TypeDecl.decode fmt.decode n (decl.encode fmt.encode) = some decl := by
  simp only [encode, Data.depth, Data.depthMembers] at h
  simp [encode, decode, TypeParam.list?_decode_ofList fmt hn decl.params (by omega),
    TypeBody.decode_encode fmt hn decl.body (by omega),
    TypeExpr.option?_decode_ofOption fmt hn decl.manifest (by omega),
    Attribute.decodeAll_encodeAll fmt decl.attributes (by omega)]

/-- A constructor that is added is read back as declared or as rebound. -/
theorem AddedBody.decode_encode (body : AddedBody π) (h : (body.encode fmt.encode).depth ≤ n) :
    AddedBody.decode fmt.decode n (body.encode fmt.encode) = some body := by
  cases body with
  | declared args result =>
      simp only [encode, Data.depth_choice, Data.depth, Data.depthItems] at h
      simp [encode, decode, ConstructorArgs.decode_encode fmt hn args (by omega),
        TypeExpr.option?_decode_ofOption fmt hn result (by omega)]
  | rebound name => simp [encode, decode]

theorem AddedConstructor.decode_encode (c : AddedConstructor π)
    (h : (c.encode fmt.encode).depth ≤ n) :
    AddedConstructor.decode fmt.decode n (c.encode fmt.encode) = some c := by
  simp only [encode, Data.depth, Data.depthMembers] at h
  simp [encode, decode, AddedBody.decode_encode fmt hn c.body (by omega),
    Attribute.decodeAll_encodeAll fmt c.attributes (by omega)]

/-- Type extensions are read back. -/
theorem TypeExtension.decode_encode (ext : TypeExtension π)
    (h : (ext.encode fmt.encode).depth ≤ n) :
    TypeExtension.decode fmt.decode n (ext.encode fmt.encode) = some ext := by
  simp only [encode, Data.depth, Data.depthMembers] at h
  have hconstructors : Data.list? (AddedConstructor.decode fmt.decode n)
      (.ofList (AddedConstructor.encode fmt.encode) ext.constructors) = some ext.constructors :=
    Data.list?_ofList fun c hc =>
      AddedConstructor.decode_encode fmt hn c (Data.depth_ofList_le_iff.1 (by omega) c hc)
  simp [encode, decode, TypeParam.list?_decode_ofList fmt hn ext.params (by omega), hconstructors,
    Attribute.decodeAll_encodeAll fmt ext.attributes (by omega)]

/-- The declaration of a value is read back. -/
theorem ValueDecl.decode_encode (decl : ValueDecl π) (h : (decl.encode fmt.encode).depth ≤ n) :
    ValueDecl.decode fmt.decode n (decl.encode fmt.encode) = some decl := by
  simp only [encode, Data.depth, Data.depthMembers] at h
  simp [encode, decode, TypeExpr.decode_encode fmt decl.type n hn (by omega),
    Attribute.decodeAll_encodeAll fmt decl.attributes (by omega)]

/-- A group of type declarations is read back. -/
theorem TypeDecl.list?_decode_ofList (decls : List (TypeDecl π))
    (h : (Data.ofList (TypeDecl.encode fmt.encode) decls).depth ≤ n + 1) :
    Data.list? (TypeDecl.decode fmt.decode n) (.ofList (TypeDecl.encode fmt.encode) decls) =
      some decls :=
  Data.list?_ofList fun d hd => decode_encode fmt hn d (Data.depth_ofList_le_iff.1 h d hd)

/-- A group of bindings is read back. -/
theorem Binding.list?_decode_ofList (bindings : List (Binding π))
    (h : (Data.ofList (Binding.encode fmt.encode) bindings).depth ≤ n + 1) :
    Data.list? (Binding.decode fmt.decode n) (.ofList (Binding.encode fmt.encode) bindings) =
      some bindings :=
  Data.list?_ofList fun b hb => decode_encode fmt b n hn (Data.depth_ofList_le_iff.1 h b hb)

end Declarations

/-! ## modules -/

mutual

/-- **Items of structures are read back** with any bound that is at least the depth of what was
written. -/
theorem StructureItem.decode_encode : (item : StructureItem π) → (n : Nat) → n ≤ fmt.bound →
    (item.encode fmt.encode).depth ≤ n →
    StructureItem.decode fmt.decode n (item.encode fmt.encode) = some item
  | _, 0, _, h => absurd h (Data.not_depth_le_zero _)
  | ⟨shape, span⟩, n + 1, hn, h => by
      simp only [StructureItem.encode, Data.depth, Data.depthMembers] at h
      simp [StructureItem.encode, StructureItem.decode,
        StructureShape.decode_encode shape n (by omega) (by omega)]

/-- Each form of item is read back from the choice that it was written as. -/
theorem StructureShape.decode_encode : (s : StructureShape π) → (n : Nat) → n ≤ fmt.bound →
    (s.encode fmt.encode).depth ≤ n →
    StructureShape.decode fmt.decode n (s.encode fmt.encode) = some s
  | _, 0, _, h => absurd h (Data.not_depth_le_zero _)
  | .eval expr attributes, n + 1, hn, h => by
      simp only [StructureShape.encode, Data.depth_choice, Data.depth, Data.depthItems] at h
      simp [StructureShape.encode, StructureShape.decode,
        Expr.decode_encode fmt expr n (by omega) (by omega),
        Attribute.decodeAll_encodeAll fmt attributes (by omega)]
  | .value recursion bindings, n + 1, hn, h => by
      simp only [StructureShape.encode, Data.depth_choice, Data.depth, Data.depthItems] at h
      simp [StructureShape.encode, StructureShape.decode,
        Binding.list?_decode_ofList fmt (Nat.le_of_succ_le hn) bindings (by omega)]
  | .primitive decl, n + 1, hn, h => by
      simp only [StructureShape.encode, Data.depth_choice] at h
      simp [StructureShape.encode, StructureShape.decode,
        ValueDecl.decode_encode fmt (Nat.le_of_succ_le hn) decl (by omega)]
  | .types recursion decls, n + 1, hn, h => by
      simp only [StructureShape.encode, Data.depth_choice, Data.depth, Data.depthItems] at h
      simp [StructureShape.encode, StructureShape.decode,
        TypeDecl.list?_decode_ofList fmt (Nat.le_of_succ_le hn) decls (by omega)]
  | .extend ext, n + 1, hn, h => by
      simp only [StructureShape.encode, Data.depth_choice] at h
      simp [StructureShape.encode, StructureShape.decode,
        TypeExtension.decode_encode fmt (Nat.le_of_succ_le hn) ext (by omega)]
  | .module binding, n + 1, hn, h => by
      simp only [StructureShape.encode, Data.depth_choice] at h
      simp [StructureShape.encode, StructureShape.decode,
        ModuleBinding.decode_encode binding n (by omega) (by omega)]
  | .recModules bindings, n + 1, hn, h => by
      simp only [StructureShape.encode, Data.depth_choice, Data.depth] at h
      simp [StructureShape.encode, StructureShape.decode, Data.list?_list,
        ModuleBinding.mapM_decode_encodeItems bindings n (by omega) (by omega)]
  | .moduleType decl, n + 1, hn, h => by
      simp only [StructureShape.encode, Data.depth_choice] at h
      simp [StructureShape.encode, StructureShape.decode,
        ModuleTypeDecl.decode_encode decl n (by omega) (by omega)]
  | .openModule decl, n + 1, hn, h => by
      simp only [StructureShape.encode, Data.depth_choice] at h
      simp [StructureShape.encode, StructureShape.decode,
        OpenDecl.decode_encode fmt decl (by omega)]
  | .include module attributes, n + 1, hn, h => by
      simp only [StructureShape.encode, Data.depth_choice, Data.depth, Data.depthItems] at h
      simp [StructureShape.encode, StructureShape.decode,
        ModuleExpr.decode_encode module n (by omega) (by omega),
        Attribute.decodeAll_encodeAll fmt attributes (by omega)]
  | .attribute attr, n + 1, hn, h => by
      simp only [StructureShape.encode, Data.depth_choice] at h
      simp [StructureShape.encode, StructureShape.decode,
        Attribute.decode_encode fmt attr (by omega)]
  | .extension ext attributes, n + 1, hn, h => by
      simp only [StructureShape.encode, Data.depth_choice, Data.depth, Data.depthItems] at h
      simp [StructureShape.encode, StructureShape.decode,
        Extension.decode_encode fmt ext (by omega),
        Attribute.decodeAll_encodeAll fmt attributes (by omega)]

/-- The items of a structure are read one by one. -/
theorem StructureItem.mapM_decode_encodeItems : (items : List (StructureItem π)) → (n : Nat) →
    n ≤ fmt.bound → Data.depthItems (StructureItem.encodeItems fmt.encode items) ≤ n →
    (StructureItem.encodeItems fmt.encode items).mapM (StructureItem.decode fmt.decode n) =
      some items
  | [], _, _, _ => rfl
  | item :: rest, n, hn, h => by
      rw [StructureItem.encodeItems, Data.depthItems] at h
      simp [StructureItem.encodeItems, StructureItem.decode_encode item n hn (by omega),
        StructureItem.mapM_decode_encodeItems rest n hn (by omega)]

/-- **Items of signatures are read back.** -/
theorem SignatureItem.decode_encode : (item : SignatureItem π) → (n : Nat) → n ≤ fmt.bound →
    (item.encode fmt.encode).depth ≤ n →
    SignatureItem.decode fmt.decode n (item.encode fmt.encode) = some item
  | _, 0, _, h => absurd h (Data.not_depth_le_zero _)
  | ⟨shape, span⟩, n + 1, hn, h => by
      simp only [SignatureItem.encode, Data.depth, Data.depthMembers] at h
      simp [SignatureItem.encode, SignatureItem.decode,
        SignatureShape.decode_encode shape n (by omega) (by omega)]

/-- Each form of item of a signature is read back from the choice that it was written as. -/
theorem SignatureShape.decode_encode : (s : SignatureShape π) → (n : Nat) → n ≤ fmt.bound →
    (s.encode fmt.encode).depth ≤ n →
    SignatureShape.decode fmt.decode n (s.encode fmt.encode) = some s
  | _, 0, _, h => absurd h (Data.not_depth_le_zero _)
  | .value decl, n + 1, hn, h => by
      simp only [SignatureShape.encode, Data.depth_choice] at h
      simp [SignatureShape.encode, SignatureShape.decode,
        ValueDecl.decode_encode fmt (Nat.le_of_succ_le hn) decl (by omega)]
  | .types recursion decls, n + 1, hn, h => by
      simp only [SignatureShape.encode, Data.depth_choice, Data.depth, Data.depthItems] at h
      simp [SignatureShape.encode, SignatureShape.decode,
        TypeDecl.list?_decode_ofList fmt (Nat.le_of_succ_le hn) decls (by omega)]
  | .extend ext, n + 1, hn, h => by
      simp only [SignatureShape.encode, Data.depth_choice] at h
      simp [SignatureShape.encode, SignatureShape.decode,
        TypeExtension.decode_encode fmt (Nat.le_of_succ_le hn) ext (by omega)]
  | .module decl, n + 1, hn, h => by
      simp only [SignatureShape.encode, Data.depth_choice] at h
      simp [SignatureShape.encode, SignatureShape.decode,
        ModuleDecl.decode_encode decl n (by omega) (by omega)]
  | .recModules decls, n + 1, hn, h => by
      simp only [SignatureShape.encode, Data.depth_choice, Data.depth] at h
      simp [SignatureShape.encode, SignatureShape.decode, Data.list?_list,
        ModuleDecl.mapM_decode_encodeItems decls n (by omega) (by omega)]
  | .moduleType decl, n + 1, hn, h => by
      simp only [SignatureShape.encode, Data.depth_choice] at h
      simp [SignatureShape.encode, SignatureShape.decode,
        ModuleTypeDecl.decode_encode decl n (by omega) (by omega)]
  | .openModule decl, n + 1, hn, h => by
      simp only [SignatureShape.encode, Data.depth_choice] at h
      simp [SignatureShape.encode, SignatureShape.decode,
        OpenDecl.decode_encode fmt decl (by omega)]
  | .include type attributes, n + 1, hn, h => by
      simp only [SignatureShape.encode, Data.depth_choice, Data.depth, Data.depthItems] at h
      simp [SignatureShape.encode, SignatureShape.decode,
        ModuleType.decode_encode type n (by omega) (by omega),
        Attribute.decodeAll_encodeAll fmt attributes (by omega)]
  | .attribute attr, n + 1, hn, h => by
      simp only [SignatureShape.encode, Data.depth_choice] at h
      simp [SignatureShape.encode, SignatureShape.decode,
        Attribute.decode_encode fmt attr (by omega)]
  | .extension ext attributes, n + 1, hn, h => by
      simp only [SignatureShape.encode, Data.depth_choice, Data.depth, Data.depthItems] at h
      simp [SignatureShape.encode, SignatureShape.decode,
        Extension.decode_encode fmt ext (by omega),
        Attribute.decodeAll_encodeAll fmt attributes (by omega)]

theorem SignatureItem.mapM_decode_encodeItems : (items : List (SignatureItem π)) → (n : Nat) →
    n ≤ fmt.bound → Data.depthItems (SignatureItem.encodeItems fmt.encode items) ≤ n →
    (SignatureItem.encodeItems fmt.encode items).mapM (SignatureItem.decode fmt.decode n) =
      some items
  | [], _, _, _ => rfl
  | item :: rest, n, hn, h => by
      rw [SignatureItem.encodeItems, Data.depthItems] at h
      simp [SignatureItem.encodeItems, SignatureItem.decode_encode item n hn (by omega),
        SignatureItem.mapM_decode_encodeItems rest n hn (by omega)]

/-- **Module expressions are read back.** -/
theorem ModuleExpr.decode_encode : (e : ModuleExpr π) → (n : Nat) → n ≤ fmt.bound →
    (e.encode fmt.encode).depth ≤ n →
    ModuleExpr.decode fmt.decode n (e.encode fmt.encode) = some e
  | _, 0, _, h => absurd h (Data.not_depth_le_zero _)
  | ⟨shape, span, attributes⟩, n + 1, hn, h => by
      simp only [ModuleExpr.encode, Data.depth, Data.depthMembers] at h
      simp [ModuleExpr.encode, ModuleExpr.decode,
        ModuleExprShape.decode_encode shape n (by omega) (by omega),
        Attribute.decodeAll_encodeAll fmt attributes (by omega)]

/-- Each form of module expression is read back from the choice that it was written as. -/
theorem ModuleExprShape.decode_encode : (s : ModuleExprShape π) → (n : Nat) → n ≤ fmt.bound →
    (s.encode fmt.encode).depth ≤ n →
    ModuleExprShape.decode fmt.decode n (s.encode fmt.encode) = some s
  | _, 0, _, h => absurd h (Data.not_depth_le_zero _)
  | .ident _, n + 1, _, _ => by simp [ModuleExprShape.encode, ModuleExprShape.decode]
  | .structure items, n + 1, hn, h => by
      simp only [ModuleExprShape.encode, Data.depth_choice, Data.depth] at h
      simp [ModuleExprShape.encode, ModuleExprShape.decode, Data.list?_list,
        StructureItem.mapM_decode_encodeItems items n (by omega) (by omega)]
  | .functor param body, n + 1, hn, h => by
      simp only [ModuleExprShape.encode, Data.depth_choice, Data.depth, Data.depthItems] at h
      simp [ModuleExprShape.encode, ModuleExprShape.decode,
        FunctorParam.decode_encode param n (by omega) (by omega),
        ModuleExpr.decode_encode body n (by omega) (by omega)]
  | .apply functor arg, n + 1, hn, h => by
      simp only [ModuleExprShape.encode, Data.depth_choice, Data.depth, Data.depthItems] at h
      simp [ModuleExprShape.encode, ModuleExprShape.decode,
        ModuleExpr.decode_encode functor n (by omega) (by omega),
        ModuleExpr.decode_encode arg n (by omega) (by omega)]
  | .constraint module type, n + 1, hn, h => by
      simp only [ModuleExprShape.encode, Data.depth_choice, Data.depth, Data.depthItems] at h
      simp [ModuleExprShape.encode, ModuleExprShape.decode,
        ModuleExpr.decode_encode module n (by omega) (by omega),
        ModuleType.decode_encode type n (by omega) (by omega)]
  | .extension ext, n + 1, hn, h => by
      simp only [ModuleExprShape.encode, Data.depth_choice] at h
      simp [ModuleExprShape.encode, ModuleExprShape.decode,
        Extension.decode_encode fmt ext (by omega)]

/-- **Module types are read back.** -/
theorem ModuleType.decode_encode : (t : ModuleType π) → (n : Nat) → n ≤ fmt.bound →
    (t.encode fmt.encode).depth ≤ n →
    ModuleType.decode fmt.decode n (t.encode fmt.encode) = some t
  | _, 0, _, h => absurd h (Data.not_depth_le_zero _)
  | ⟨shape, span, attributes⟩, n + 1, hn, h => by
      simp only [ModuleType.encode, Data.depth, Data.depthMembers] at h
      simp [ModuleType.encode, ModuleType.decode,
        ModuleTypeShape.decode_encode shape n (by omega) (by omega),
        Attribute.decodeAll_encodeAll fmt attributes (by omega)]

/-- Each form of module type is read back from the choice that it was written as. -/
theorem ModuleTypeShape.decode_encode : (s : ModuleTypeShape π) → (n : Nat) → n ≤ fmt.bound →
    (s.encode fmt.encode).depth ≤ n →
    ModuleTypeShape.decode fmt.decode n (s.encode fmt.encode) = some s
  | _, 0, _, h => absurd h (Data.not_depth_le_zero _)
  | .ident _, n + 1, _, _ | .aliased _, n + 1, _, _ => by
      simp [ModuleTypeShape.encode, ModuleTypeShape.decode]
  | .signature items, n + 1, hn, h => by
      simp only [ModuleTypeShape.encode, Data.depth_choice, Data.depth] at h
      simp [ModuleTypeShape.encode, ModuleTypeShape.decode, Data.list?_list,
        SignatureItem.mapM_decode_encodeItems items n (by omega) (by omega)]
  | .functor param body, n + 1, hn, h => by
      simp only [ModuleTypeShape.encode, Data.depth_choice, Data.depth, Data.depthItems] at h
      simp [ModuleTypeShape.encode, ModuleTypeShape.decode,
        FunctorParam.decode_encode param n (by omega) (by omega),
        ModuleType.decode_encode body n (by omega) (by omega)]
  | .extension ext, n + 1, hn, h => by
      simp only [ModuleTypeShape.encode, Data.depth_choice] at h
      simp [ModuleTypeShape.encode, ModuleTypeShape.decode,
        Extension.decode_encode fmt ext (by omega)]

/-- An abstract module type is written as nothing and read as abstract. -/
theorem ModuleType.option?_decode_encodeOption : (t : Option (ModuleType π)) → (n : Nat) →
    n ≤ fmt.bound → (ModuleType.encodeOption fmt.encode t).depth ≤ n →
    Data.option? (ModuleType.decode fmt.decode n) (ModuleType.encodeOption fmt.encode t) = some t
  | none, _, _, _ => rfl
  | some t, n, hn, h => by
      have hnull : t.encode fmt.encode ≠ .null := by cases t; exact nofun
      rw [ModuleType.encodeOption] at h ⊢
      rw [Data.option?_of_ne_null hnull, ModuleType.decode_encode t n hn h, Option.map_some]

/-- The parameter of a functor is read back, the unit one included. -/
theorem FunctorParam.decode_encode : (p : FunctorParam π) → (n : Nat) → n ≤ fmt.bound →
    (p.encode fmt.encode).depth ≤ n →
    FunctorParam.decode fmt.decode n (p.encode fmt.encode) = some p
  | _, 0, _, h => absurd h (Data.not_depth_le_zero _)
  | .unit, n + 1, _, _ => by simp [FunctorParam.encode, FunctorParam.decode]
  | .named name type, n + 1, hn, h => by
      simp only [FunctorParam.encode, Data.depth_choice, Data.depth, Data.depthItems] at h
      simp [FunctorParam.encode, FunctorParam.decode,
        ModuleType.decode_encode type n (by omega) (by omega)]

/-- A module with its name is read back, also one without a name. -/
theorem ModuleBinding.decode_encode : (b : ModuleBinding π) → (n : Nat) → n ≤ fmt.bound →
    (b.encode fmt.encode).depth ≤ n →
    ModuleBinding.decode fmt.decode n (b.encode fmt.encode) = some b
  | _, 0, _, h => absurd h (Data.not_depth_le_zero _)
  | ⟨name, body, attributes, span⟩, n + 1, hn, h => by
      simp only [ModuleBinding.encode, Data.depth, Data.depthMembers] at h
      simp [ModuleBinding.encode, ModuleBinding.decode,
        ModuleExpr.decode_encode body n (by omega) (by omega),
        Attribute.decodeAll_encodeAll fmt attributes (by omega)]

theorem ModuleBinding.mapM_decode_encodeItems : (bs : List (ModuleBinding π)) → (n : Nat) →
    n ≤ fmt.bound → Data.depthItems (ModuleBinding.encodeItems fmt.encode bs) ≤ n →
    (ModuleBinding.encodeItems fmt.encode bs).mapM (ModuleBinding.decode fmt.decode n) = some bs
  | [], _, _, _ => rfl
  | b :: rest, n, hn, h => by
      rw [ModuleBinding.encodeItems, Data.depthItems] at h
      simp [ModuleBinding.encodeItems, ModuleBinding.decode_encode b n hn (by omega),
        ModuleBinding.mapM_decode_encodeItems rest n hn (by omega)]

/-- A declared module is read back. -/
theorem ModuleDecl.decode_encode : (d : ModuleDecl π) → (n : Nat) → n ≤ fmt.bound →
    (d.encode fmt.encode).depth ≤ n →
    ModuleDecl.decode fmt.decode n (d.encode fmt.encode) = some d
  | _, 0, _, h => absurd h (Data.not_depth_le_zero _)
  | ⟨name, type, attributes, span⟩, n + 1, hn, h => by
      simp only [ModuleDecl.encode, Data.depth, Data.depthMembers] at h
      simp [ModuleDecl.encode, ModuleDecl.decode,
        ModuleType.decode_encode type n (by omega) (by omega),
        Attribute.decodeAll_encodeAll fmt attributes (by omega)]

theorem ModuleDecl.mapM_decode_encodeItems : (ds : List (ModuleDecl π)) → (n : Nat) →
    n ≤ fmt.bound → Data.depthItems (ModuleDecl.encodeItems fmt.encode ds) ≤ n →
    (ModuleDecl.encodeItems fmt.encode ds).mapM (ModuleDecl.decode fmt.decode n) = some ds
  | [], _, _, _ => rfl
  | d :: rest, n, hn, h => by
      rw [ModuleDecl.encodeItems, Data.depthItems] at h
      simp [ModuleDecl.encodeItems, ModuleDecl.decode_encode d n hn (by omega),
        ModuleDecl.mapM_decode_encodeItems rest n hn (by omega)]

/-- A declared module type is read back. -/
theorem ModuleTypeDecl.decode_encode : (d : ModuleTypeDecl π) → (n : Nat) → n ≤ fmt.bound →
    (d.encode fmt.encode).depth ≤ n →
    ModuleTypeDecl.decode fmt.decode n (d.encode fmt.encode) = some d
  | _, 0, _, h => absurd h (Data.not_depth_le_zero _)
  | ⟨name, type, attributes, span⟩, n + 1, hn, h => by
      simp only [ModuleTypeDecl.encode, Data.depth, Data.depthMembers] at h
      simp [ModuleTypeDecl.encode, ModuleTypeDecl.decode,
        ModuleType.option?_decode_encodeOption type n (by omega) (by omega),
        Attribute.decodeAll_encodeAll fmt attributes (by omega)]

end

end DeriveKit
