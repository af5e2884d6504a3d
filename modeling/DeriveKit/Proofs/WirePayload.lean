import DeriveKit.Proofs.WireModule
import DeriveKit.Proofs.WireUniform

/-!
# DeriveKit.Proofs.WirePayload

Reading what was written in the exchange format, for payloads, which are written at any depth, and
so for every tree over payloads (`trees_round_trip`). A payload is read level by level: the first
level is read with the format of the next one (`PayloadShape.decode_encode`), and the bound on the
depth, which each level makes smaller, carries the induction (`Payload.decode_encode`).
-/

namespace DeriveKit

/-! ## payloads -/

/-- The first level of a payload is read back if the payloads on the next one are. -/
theorem PayloadShape.decode_encode {π : Type} (fmt : PayloadFormat π) {n : Nat}
    (hn : n ≤ fmt.bound) : (s : PayloadShape π) → (s.encode fmt.encode).depth ≤ n + 1 →
    PayloadShape.decode fmt.decode n (s.encode fmt.encode) = some s
  | .structure items, h => by
      simp only [encode, Data.depth_choice, Data.depth] at h
      simp [encode, decode, Data.list?_list,
        StructureItem.mapM_decode_encodeItems fmt items n hn (by omega)]
  | .signature items, h => by
      simp only [encode, Data.depth_choice, Data.depth] at h
      simp [encode, decode, Data.list?_list,
        SignatureItem.mapM_decode_encodeItems fmt items n hn (by omega)]
  | .type t, h => by
      simp only [encode, Data.depth_choice] at h
      simp [encode, decode, TypeExpr.decode_encode fmt t n hn (by omega)]
  | .pattern p guard, h => by
      simp only [encode, Data.depth_choice, Data.depth, Data.depthItems] at h
      simp [encode, decode, Pattern.decode_encode fmt p n hn (by omega),
        Expr.option?_decode_encodeOption fmt guard n hn (by omega)]

/-- A payload is read back with any bound that is at least the depth of what was written. -/
theorem Payload.decode_encode (n : Nat) (p : Payload) (h : p.encode.depth ≤ n) :
    decode n p.encode = some p := by
  induction n generalizing p with
  | zero => exact absurd h (Data.not_depth_le_zero _)
  | succ n ih =>
      have hshape : p.encode = p.shape.encode encode := by
        rw [← encode_ofShape, ofShape_shape]
      rw [hshape] at h
      have hread : PayloadShape.decode (decode n) n (p.shape.encode encode) = some p.shape :=
        PayloadShape.decode_encode ⟨encode, decode n, n, ih⟩ (Nat.le_refl n) p.shape h
      rw [hshape, decode, hread, Option.map_some, ofShape_shape]

/-- Payloads as they are read within a bound on the depth. -/
def PayloadFormat.within (n : Nat) : PayloadFormat Payload where
  encode := Payload.encode
  decode := Payload.decode n
  bound := n
  decode_encode := Payload.decode_encode n

/-! ## trees -/

/-- Trees can be exchanged if their readers undo writing within the bound that they are given. -/
theorem Data.roundTrips_read {α : Type} {encode : α → Data}
    {decode : (Data → Option Payload) → Nat → Data → Option α}
    (h : ∀ n a, (encode a).depth ≤ n → decode (Payload.decode n) n (encode a) = some a) :
    RoundTrips encode (Data.read decode) :=
  .of_decode_encode fun a => h _ a (Nat.le_refl _)

/-- **Trees can be exchanged.** Every kind of node, whatever payloads are in it, is read back from
what it is written as; so no two nodes of a kind are written alike, and what is read from any data
is written in a form that stays the same. -/
theorem trees_round_trip :
    -- names, places, flags and literals
    RoundTrips Span.encode Span.decode ∧
    RoundTrips QualName.encode QualName.decode ∧
    RoundTrips encodeName decodeName ∧
    RoundTrips encodeQualName decodeQualName ∧
    RoundTrips encodeModuleName decodeModuleName ∧
    RoundTrips ArgLabel.encode ArgLabel.decode ∧
    RoundTrips Openness.encode Openness.decode ∧
    RoundTrips Recursion.encode Recursion.decode ∧
    RoundTrips Variance.encode Variance.decode ∧
    RoundTrips encodeOverride decodeOverride ∧
    RoundTrips encodePrivate decodePrivate ∧
    RoundTrips encodeMutable decodeMutable ∧
    RoundTrips Constant.encode Constant.decode ∧
    -- payloads, attributes and extension nodes
    RoundTrips Payload.encode (Data.read fun _ => Payload.decode) ∧
    RoundTrips (Attribute.encode Payload.encode) (Data.read fun pay _ => Attribute.decode pay) ∧
    RoundTrips (Extension.encode Payload.encode) (Data.read fun pay _ => Extension.decode pay) ∧
    -- types, patterns and expressions
    RoundTrips (TypeExpr.encode Payload.encode) (Data.read TypeExpr.decode) ∧
    RoundTrips (Row.encode Payload.encode) (Data.read Row.decode) ∧
    RoundTrips (Pattern.encode Payload.encode) (Data.read Pattern.decode) ∧
    RoundTrips (Expr.encode Payload.encode) (Data.read Expr.decode) ∧
    RoundTrips (Case.encode Payload.encode) (Data.read Case.decode) ∧
    RoundTrips (Binding.encode Payload.encode) (Data.read Binding.decode) ∧
    RoundTrips (OpenDecl.encode Payload.encode) (Data.read fun pay _ => OpenDecl.decode pay) ∧
    -- declarations
    RoundTrips (TypeParam.encode Payload.encode) (Data.read TypeParam.decode) ∧
    RoundTrips (Label.encode Payload.encode) (Data.read Label.decode) ∧
    RoundTrips (ConstructorArgs.encode Payload.encode) (Data.read ConstructorArgs.decode) ∧
    RoundTrips (Constructor.encode Payload.encode) (Data.read Constructor.decode) ∧
    RoundTrips (TypeBody.encode Payload.encode) (Data.read TypeBody.decode) ∧
    RoundTrips (TypeDecl.encode Payload.encode) (Data.read TypeDecl.decode) ∧
    RoundTrips (AddedBody.encode Payload.encode) (Data.read AddedBody.decode) ∧
    RoundTrips (AddedConstructor.encode Payload.encode) (Data.read AddedConstructor.decode) ∧
    RoundTrips (TypeExtension.encode Payload.encode) (Data.read TypeExtension.decode) ∧
    RoundTrips (ValueDecl.encode Payload.encode) (Data.read ValueDecl.decode) ∧
    -- items and modules
    RoundTrips (StructureItem.encode Payload.encode) (Data.read StructureItem.decode) ∧
    RoundTrips (SignatureItem.encode Payload.encode) (Data.read SignatureItem.decode) ∧
    RoundTrips (ModuleExpr.encode Payload.encode) (Data.read ModuleExpr.decode) ∧
    RoundTrips (ModuleType.encode Payload.encode) (Data.read ModuleType.decode) ∧
    RoundTrips (FunctorParam.encode Payload.encode) (Data.read FunctorParam.decode) ∧
    RoundTrips (ModuleBinding.encode Payload.encode) (Data.read ModuleBinding.decode) ∧
    RoundTrips (ModuleDecl.encode Payload.encode) (Data.read ModuleDecl.decode) ∧
    RoundTrips (ModuleTypeDecl.encode Payload.encode) (Data.read ModuleTypeDecl.decode) := by
  refine ⟨.of_decode_encode Span.decode_encode, .of_decode_encode QualName.decode_encode,
    .of_decode_encode decodeName_encodeName, .of_decode_encode decodeQualName_encodeQualName,
    .of_decode_encode decodeModuleName_encodeModuleName, .of_decode_encode ArgLabel.decode_encode,
    .of_decode_encode Openness.decode_encode, .of_decode_encode Recursion.decode_encode,
    .of_decode_encode Variance.decode_encode, .of_decode_encode decodeOverride_encodeOverride,
    .of_decode_encode decodePrivate_encodePrivate, .of_decode_encode decodeMutable_encodeMutable,
    .of_decode_encode Constant.decode_encode, Data.roundTrips_read Payload.decode_encode, ?_⟩
  have hle (n : Nat) : n ≤ (PayloadFormat.within n).bound := Nat.le_refl n
  exact ⟨Data.roundTrips_read fun n => Attribute.decode_encode (.within n),
    Data.roundTrips_read fun n => Extension.decode_encode (.within n),
    Data.roundTrips_read fun n a => TypeExpr.decode_encode (.within n) a n (hle n),
    Data.roundTrips_read fun n a => Row.decode_encode (.within n) a n (hle n),
    Data.roundTrips_read fun n a => Pattern.decode_encode (.within n) a n (hle n),
    Data.roundTrips_read fun n a => Expr.decode_encode (.within n) a n (hle n),
    Data.roundTrips_read fun n a => Case.decode_encode (.within n) a n (hle n),
    Data.roundTrips_read fun n a => Binding.decode_encode (.within n) a n (hle n),
    Data.roundTrips_read fun n => OpenDecl.decode_encode (.within n),
    Data.roundTrips_read fun n => TypeParam.decode_encode (.within n) (hle n),
    Data.roundTrips_read fun n => Label.decode_encode (.within n) (hle n),
    Data.roundTrips_read fun n => ConstructorArgs.decode_encode (.within n) (hle n),
    Data.roundTrips_read fun n => Constructor.decode_encode (.within n) (hle n),
    Data.roundTrips_read fun n => TypeBody.decode_encode (.within n) (hle n),
    Data.roundTrips_read fun n => TypeDecl.decode_encode (.within n) (hle n),
    Data.roundTrips_read fun n => AddedBody.decode_encode (.within n) (hle n),
    Data.roundTrips_read fun n => AddedConstructor.decode_encode (.within n) (hle n),
    Data.roundTrips_read fun n => TypeExtension.decode_encode (.within n) (hle n),
    Data.roundTrips_read fun n => ValueDecl.decode_encode (.within n) (hle n),
    Data.roundTrips_read fun n a => StructureItem.decode_encode (.within n) a n (hle n),
    Data.roundTrips_read fun n a => SignatureItem.decode_encode (.within n) a n (hle n),
    Data.roundTrips_read fun n a => ModuleExpr.decode_encode (.within n) a n (hle n),
    Data.roundTrips_read fun n a => ModuleType.decode_encode (.within n) a n (hle n),
    Data.roundTrips_read fun n a => FunctorParam.decode_encode (.within n) a n (hle n),
    Data.roundTrips_read fun n a => ModuleBinding.decode_encode (.within n) a n (hle n),
    Data.roundTrips_read fun n a => ModuleDecl.decode_encode (.within n) a n (hle n),
    Data.roundTrips_read fun n a => ModuleTypeDecl.decode_encode (.within n) a n (hle n)⟩

end DeriveKit
