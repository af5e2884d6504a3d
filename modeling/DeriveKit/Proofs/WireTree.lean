import DeriveKit.Proofs.WireSource

/-!
# DeriveKit.Proofs.WireTree

Reading what was written in the exchange format, for types, patterns and expressions over payloads
that are read back. A `PayloadFormat` is a way to write and to read payloads; what it reads of what
it wrote, up to a bound on the depth, is what was written.

A reader is given a bound; the depth of the data that was written is enough. So each lemma
`decode_encode` supposes that the depth is within the bound, and passes to the parts with a smaller
bound, as the reader does. The lemmas for lists of parts are beside those for the parts, as the
writers are.
-/

namespace DeriveKit

/-- A format of payloads, which reads back those that are written at most `bound` deep. -/
structure PayloadFormat (π : Type) where
  encode : π → Data
  decode : Data → Option π
  bound : Nat
  decode_encode : ∀ p, (encode p).depth ≤ bound → decode (encode p) = some p

variable {π : Type} (fmt : PayloadFormat π)

/-! ## attributes and extension nodes -/

/-- An attribute is read back if its payload is, which stands deeper than the attribute itself. -/
theorem Attribute.decode_encode (a : Attribute π) (h : (a.encode fmt.encode).depth ≤ fmt.bound) :
    Attribute.decode fmt.decode (a.encode fmt.encode) = some a := by
  simp only [encode, Data.depth, Data.depthMembers] at h
  simp [encode, decode, fmt.decode_encode a.payload (by omega)]

/-- So are attributes, each within the bound for all of them. -/
theorem Attribute.decodeAll_encodeAll (attributes : List (Attribute π))
    (h : (encodeAll fmt.encode attributes).depth ≤ fmt.bound) :
    decodeAll fmt.decode (encodeAll fmt.encode attributes) = some attributes := by
  refine Data.list?_ofList fun a ha => decode_encode fmt a ?_
  have hle : (encodeAll fmt.encode attributes).depth ≤ fmt.bound + 1 := by omega
  exact Data.depth_ofList_le_iff.1 hle a ha

/-- An extension node is read back if its payload is. -/
theorem Extension.decode_encode (ext : Extension π)
    (h : (ext.encode fmt.encode).depth ≤ fmt.bound) :
    Extension.decode fmt.decode (ext.encode fmt.encode) = some ext := by
  simp only [encode, Data.depth, Data.depthMembers] at h
  simp [encode, decode, fmt.decode_encode ext.payload (by omega)]

/-! ## types -/

mutual

/-- **Types are read back** with any bound `n` that is at least the depth of what was written, and
at most the bound for payloads. The recursion is on the tree; the bound goes down with it. -/
theorem TypeExpr.decode_encode : (t : TypeExpr π) → (n : Nat) → n ≤ fmt.bound →
    (t.encode fmt.encode).depth ≤ n → TypeExpr.decode fmt.decode n (t.encode fmt.encode) = some t
  | _, 0, _, h => absurd h (Data.not_depth_le_zero _)
  | ⟨shape, span, attributes⟩, n + 1, hn, h => by
      simp only [TypeExpr.encode, Data.depth, Data.depthMembers] at h
      simp [TypeExpr.encode, TypeExpr.decode, TypeShape.decode_encode shape n (by omega) (by omega),
        Attribute.decodeAll_encodeAll fmt attributes (by omega)]

/-- Each form of type is read back from the choice that it was written as. -/
theorem TypeShape.decode_encode : (s : TypeShape π) → (n : Nat) → n ≤ fmt.bound →
    (s.encode fmt.encode).depth ≤ n → TypeShape.decode fmt.decode n (s.encode fmt.encode) = some s
  | _, 0, _, h => absurd h (Data.not_depth_le_zero _)
  | .any, n + 1, _, _ | .var _, n + 1, _, _ | .package _, n + 1, _, _ => by
      simp [TypeShape.encode, TypeShape.decode]
  | .arrow label domain codomain, n + 1, hn, h => by
      simp only [TypeShape.encode, Data.depth_choice, Data.depth, Data.depthItems] at h
      simp [TypeShape.encode, TypeShape.decode,
        TypeExpr.decode_encode domain n (by omega) (by omega),
        TypeExpr.decode_encode codomain n (by omega) (by omega)]
  | .tuple elements, n + 1, hn, h => by
      simp only [TypeShape.encode, Data.depth_choice, Data.depth] at h
      simp [TypeShape.encode, TypeShape.decode, Data.list?_list,
        TypeExpr.mapM_decode_encodeItems elements n (by omega) (by omega)]
  | .constr name args, n + 1, hn, h => by
      simp only [TypeShape.encode, Data.depth_choice, Data.depth, Data.depthItems] at h
      simp [TypeShape.encode, TypeShape.decode, Data.list?_list,
        TypeExpr.mapM_decode_encodeItems args n (by omega) (by omega)]
  | .object methods openness, n + 1, hn, h => by
      simp only [TypeShape.encode, Data.depth_choice, Data.depth, Data.depthItems] at h
      simp [TypeShape.encode, TypeShape.decode, Data.list?_list,
        TypeExpr.mapM_decode_encodeMethods methods n (by omega) (by omega)]
  | .aliased body name, n + 1, hn, h => by
      simp only [TypeShape.encode, Data.depth_choice, Data.depth, Data.depthItems] at h
      simp [TypeShape.encode, TypeShape.decode, TypeExpr.decode_encode body n (by omega) (by omega)]
  | .variant rows openness lower, n + 1, hn, h => by
      simp only [TypeShape.encode, Data.depth_choice, Data.depth, Data.depthItems] at h
      simp [TypeShape.encode, TypeShape.decode, Data.list?_list,
        Row.mapM_decode_encodeItems rows n (by omega) (by omega)]
  | .poly vars body, n + 1, hn, h => by
      simp only [TypeShape.encode, Data.depth_choice, Data.depth, Data.depthItems] at h
      have hvars : Data.list? decodeName (.ofList encodeName vars) = some vars :=
        Data.list?_ofList fun name _ => decodeName_encodeName name
      simp [TypeShape.encode, TypeShape.decode, hvars,
        TypeExpr.decode_encode body n (by omega) (by omega)]
  | .extension ext, n + 1, hn, h => by
      simp only [TypeShape.encode, Data.depth_choice] at h
      simp [TypeShape.encode, TypeShape.decode, Extension.decode_encode fmt ext (by omega)]

/-- The parts of a product or the arguments of a constructor are read one by one. -/
theorem TypeExpr.mapM_decode_encodeItems : (ts : List (TypeExpr π)) → (n : Nat) → n ≤ fmt.bound →
    Data.depthItems (TypeExpr.encodeItems fmt.encode ts) ≤ n →
    (TypeExpr.encodeItems fmt.encode ts).mapM (TypeExpr.decode fmt.decode n) = some ts
  | [], _, _, _ => rfl
  | t :: rest, n, hn, h => by
      rw [TypeExpr.encodeItems, Data.depthItems] at h
      simp [TypeExpr.encodeItems, TypeExpr.decode_encode t n hn (by omega),
        TypeExpr.mapM_decode_encodeItems rest n hn (by omega)]

/-- Methods are read as pairs of a name and a type. -/
theorem TypeExpr.mapM_decode_encodeMethods : (methods : List (Located String × TypeExpr π)) →
    (n : Nat) → n ≤ fmt.bound → Data.depthItems (TypeExpr.encodeMethods fmt.encode methods) ≤ n →
    (TypeExpr.encodeMethods fmt.encode methods).mapM
      (Data.pair? decodeName (TypeExpr.decode fmt.decode n)) = some methods
  | [], _, _, _ => rfl
  | (name, t) :: rest, n, hn, h => by
      simp only [TypeExpr.encodeMethods, Data.depthItems, Data.depth] at h
      simp [TypeExpr.encodeMethods, Data.pair?_list, TypeExpr.decode_encode t n hn (by omega),
        TypeExpr.mapM_decode_encodeMethods rest n hn (by omega)]

/-- Rows are read back. -/
theorem Row.decode_encode : (r : Row π) → (n : Nat) → n ≤ fmt.bound →
    (r.encode fmt.encode).depth ≤ n → Row.decode fmt.decode n (r.encode fmt.encode) = some r
  | _, 0, _, h => absurd h (Data.not_depth_le_zero _)
  | ⟨shape, span, attributes⟩, n + 1, hn, h => by
      simp only [Row.encode, Data.depth, Data.depthMembers] at h
      simp [Row.encode, Row.decode, RowShape.decode_encode shape n (by omega) (by omega),
        Attribute.decodeAll_encodeAll fmt attributes (by omega)]

/-- A tag with its arguments, or a type whose rows are taken over. -/
theorem RowShape.decode_encode : (s : RowShape π) → (n : Nat) → n ≤ fmt.bound →
    (s.encode fmt.encode).depth ≤ n → RowShape.decode fmt.decode n (s.encode fmt.encode) = some s
  | _, 0, _, h => absurd h (Data.not_depth_le_zero _)
  | .tag label constant args, n + 1, hn, h => by
      simp only [RowShape.encode, Data.depth_choice, Data.depth, Data.depthMembers] at h
      simp [RowShape.encode, RowShape.decode, Data.list?_list, Data.bool?,
        TypeExpr.mapM_decode_encodeItems args n (by omega) (by omega)]
  | .inherit t, n + 1, hn, h => by
      simp only [RowShape.encode, Data.depth_choice] at h
      simp [RowShape.encode, RowShape.decode, TypeExpr.decode_encode t n (by omega) (by omega)]

theorem Row.mapM_decode_encodeItems : (rows : List (Row π)) → (n : Nat) → n ≤ fmt.bound →
    Data.depthItems (Row.encodeItems fmt.encode rows) ≤ n →
    (Row.encodeItems fmt.encode rows).mapM (Row.decode fmt.decode n) = some rows
  | [], _, _, _ => rfl
  | r :: rest, n, hn, h => by
      rw [Row.encodeItems, Data.depthItems] at h
      simp [Row.encodeItems, Row.decode_encode r n hn (by omega),
        Row.mapM_decode_encodeItems rest n hn (by omega)]

end

/-! ## patterns -/

mutual

/-- **Patterns are read back**, by the recursion that reads types back. -/
theorem Pattern.decode_encode : (p : Pattern π) → (n : Nat) → n ≤ fmt.bound →
    (p.encode fmt.encode).depth ≤ n → Pattern.decode fmt.decode n (p.encode fmt.encode) = some p
  | _, 0, _, h => absurd h (Data.not_depth_le_zero _)
  | ⟨shape, span, attributes⟩, n + 1, hn, h => by
      simp only [Pattern.encode, Data.depth, Data.depthMembers] at h
      simp [Pattern.encode, Pattern.decode,
        PatternShape.decode_encode shape n (by omega) (by omega),
        Attribute.decodeAll_encodeAll fmt attributes (by omega)]

/-- Each form of pattern is read back from the choice that it was written as. -/
theorem PatternShape.decode_encode : (s : PatternShape π) → (n : Nat) → n ≤ fmt.bound →
    (s.encode fmt.encode).depth ≤ n →
    PatternShape.decode fmt.decode n (s.encode fmt.encode) = some s
  | _, 0, _, h => absurd h (Data.not_depth_le_zero _)
  | .any, n + 1, _, _ | .var _, n + 1, _, _ | .constant _, n + 1, _, _ => by
      simp [PatternShape.encode, PatternShape.decode]
  | .aliased pattern name, n + 1, hn, h => by
      simp only [PatternShape.encode, Data.depth_choice, Data.depth, Data.depthItems] at h
      simp [PatternShape.encode, PatternShape.decode,
        Pattern.decode_encode pattern n (by omega) (by omega)]
  | .tuple elements, n + 1, hn, h => by
      simp only [PatternShape.encode, Data.depth_choice, Data.depth] at h
      simp [PatternShape.encode, PatternShape.decode, Data.list?_list,
        Pattern.mapM_decode_encodeItems elements n (by omega) (by omega)]
  | .construct name arg, n + 1, hn, h => by
      simp only [PatternShape.encode, Data.depth_choice, Data.depth, Data.depthItems] at h
      simp [PatternShape.encode, PatternShape.decode,
        Pattern.option?_decode_encodeOption arg n (by omega) (by omega)]
  | .variant tag arg, n + 1, hn, h => by
      simp only [PatternShape.encode, Data.depth_choice, Data.depth, Data.depthItems] at h
      simp [PatternShape.encode, PatternShape.decode,
        Pattern.option?_decode_encodeOption arg n (by omega) (by omega)]
  | .record fields openness, n + 1, hn, h => by
      simp only [PatternShape.encode, Data.depth_choice, Data.depth, Data.depthItems] at h
      simp [PatternShape.encode, PatternShape.decode, Data.list?_list,
        Pattern.mapM_decode_encodeFields fields n (by omega) (by omega)]
  | .either left right, n + 1, hn, h => by
      simp only [PatternShape.encode, Data.depth_choice, Data.depth, Data.depthItems] at h
      simp [PatternShape.encode, PatternShape.decode,
        Pattern.decode_encode left n (by omega) (by omega),
        Pattern.decode_encode right n (by omega) (by omega)]
  | .constraint pattern type, n + 1, hn, h => by
      simp only [PatternShape.encode, Data.depth_choice, Data.depth, Data.depthItems] at h
      simp [PatternShape.encode, PatternShape.decode,
        Pattern.decode_encode pattern n (by omega) (by omega),
        TypeExpr.decode_encode fmt type n (by omega) (by omega)]

theorem Pattern.mapM_decode_encodeItems : (ps : List (Pattern π)) → (n : Nat) → n ≤ fmt.bound →
    Data.depthItems (Pattern.encodeItems fmt.encode ps) ≤ n →
    (Pattern.encodeItems fmt.encode ps).mapM (Pattern.decode fmt.decode n) = some ps
  | [], _, _, _ => rfl
  | p :: rest, n, hn, h => by
      rw [Pattern.encodeItems, Data.depthItems] at h
      simp [Pattern.encodeItems, Pattern.decode_encode p n hn (by omega),
        Pattern.mapM_decode_encodeItems rest n hn (by omega)]

/-- An argument that is absent is written as nothing and read as absent. -/
theorem Pattern.option?_decode_encodeOption : (p : Option (Pattern π)) → (n : Nat) → n ≤ fmt.bound →
    (Pattern.encodeOption fmt.encode p).depth ≤ n →
    Data.option? (Pattern.decode fmt.decode n) (Pattern.encodeOption fmt.encode p) = some p
  | none, _, _, _ => rfl
  | some p, n, hn, h => by
      have hnull : p.encode fmt.encode ≠ .null := by cases p; exact nofun
      rw [Pattern.encodeOption] at h ⊢
      rw [Data.option?_of_ne_null hnull, Pattern.decode_encode p n hn h, Option.map_some]

/-- Fields are read as pairs of a label and a pattern. -/
theorem Pattern.mapM_decode_encodeFields : (fields : List (Located QualName × Pattern π)) →
    (n : Nat) → n ≤ fmt.bound → Data.depthItems (Pattern.encodeFields fmt.encode fields) ≤ n →
    (Pattern.encodeFields fmt.encode fields).mapM
      (Data.pair? decodeQualName (Pattern.decode fmt.decode n)) = some fields
  | [], _, _, _ => rfl
  | (label, p) :: rest, n, hn, h => by
      simp only [Pattern.encodeFields, Data.depthItems, Data.depth] at h
      simp [Pattern.encodeFields, Data.pair?_list, Pattern.decode_encode p n hn (by omega),
        Pattern.mapM_decode_encodeFields rest n hn (by omega)]

end

/-! ## expressions -/

/-- An opening is read back. -/
theorem OpenDecl.decode_encode (decl : OpenDecl π)
    (h : (decl.encode fmt.encode).depth ≤ fmt.bound) :
    OpenDecl.decode fmt.decode (decl.encode fmt.encode) = some decl := by
  simp only [encode, Data.depth, Data.depthMembers] at h
  simp [encode, decode, Attribute.decodeAll_encodeAll fmt decl.attributes (by omega)]

mutual

/-- **Expressions are read back**, by the recursion that reads types back. -/
theorem Expr.decode_encode : (e : Expr π) → (n : Nat) → n ≤ fmt.bound →
    (e.encode fmt.encode).depth ≤ n → Expr.decode fmt.decode n (e.encode fmt.encode) = some e
  | _, 0, _, h => absurd h (Data.not_depth_le_zero _)
  | ⟨shape, span, attributes⟩, n + 1, hn, h => by
      simp only [Expr.encode, Data.depth, Data.depthMembers] at h
      simp [Expr.encode, Expr.decode, ExprShape.decode_encode shape n (by omega) (by omega),
        Attribute.decodeAll_encodeAll fmt attributes (by omega)]

/-- Each form of expression is read back from the choice that it was written as. -/
theorem ExprShape.decode_encode : (s : ExprShape π) → (n : Nat) → n ≤ fmt.bound →
    (s.encode fmt.encode).depth ≤ n → ExprShape.decode fmt.decode n (s.encode fmt.encode) = some s
  | _, 0, _, h => absurd h (Data.not_depth_le_zero _)
  | .ident _, n + 1, _, _ | .constant _, n + 1, _, _ => by
      simp [ExprShape.encode, ExprShape.decode]
  | .letIn recursion bindings body, n + 1, hn, h => by
      simp only [ExprShape.encode, Data.depth_choice, Data.depth, Data.depthItems] at h
      simp [ExprShape.encode, ExprShape.decode, Data.list?_list,
        Binding.mapM_decode_encodeItems bindings n (by omega) (by omega),
        Expr.decode_encode body n (by omega) (by omega)]
  | .function cases, n + 1, hn, h => by
      simp only [ExprShape.encode, Data.depth_choice, Data.depth] at h
      simp [ExprShape.encode, ExprShape.decode, Data.list?_list,
        Case.mapM_decode_encodeItems cases n (by omega) (by omega)]
  | .lambda label default param body, n + 1, hn, h => by
      simp only [ExprShape.encode, Data.depth_choice, Data.depth, Data.depthItems] at h
      simp [ExprShape.encode, ExprShape.decode,
        Expr.option?_decode_encodeOption default n (by omega) (by omega),
        Pattern.decode_encode fmt param n (by omega) (by omega),
        Expr.decode_encode body n (by omega) (by omega)]
  | .apply callee args, n + 1, hn, h => by
      simp only [ExprShape.encode, Data.depth_choice, Data.depth, Data.depthItems] at h
      simp [ExprShape.encode, ExprShape.decode, Data.list?_list,
        Expr.decode_encode callee n (by omega) (by omega),
        Expr.mapM_decode_encodeArgs args n (by omega) (by omega)]
  | .matchWith scrutinee cases, n + 1, hn, h => by
      simp only [ExprShape.encode, Data.depth_choice, Data.depth, Data.depthItems] at h
      simp [ExprShape.encode, ExprShape.decode, Data.list?_list,
        Expr.decode_encode scrutinee n (by omega) (by omega),
        Case.mapM_decode_encodeItems cases n (by omega) (by omega)]
  | .tuple elements, n + 1, hn, h => by
      simp only [ExprShape.encode, Data.depth_choice, Data.depth] at h
      simp [ExprShape.encode, ExprShape.decode, Data.list?_list,
        Expr.mapM_decode_encodeItems elements n (by omega) (by omega)]
  | .construct name arg, n + 1, hn, h => by
      simp only [ExprShape.encode, Data.depth_choice, Data.depth, Data.depthItems] at h
      simp [ExprShape.encode, ExprShape.decode,
        Expr.option?_decode_encodeOption arg n (by omega) (by omega)]
  | .variant tag arg, n + 1, hn, h => by
      simp only [ExprShape.encode, Data.depth_choice, Data.depth, Data.depthItems] at h
      simp [ExprShape.encode, ExprShape.decode,
        Expr.option?_decode_encodeOption arg n (by omega) (by omega)]
  | .record fields base, n + 1, hn, h => by
      simp only [ExprShape.encode, Data.depth_choice, Data.depth, Data.depthItems] at h
      simp [ExprShape.encode, ExprShape.decode, Data.list?_list,
        Expr.mapM_decode_encodeFields fields n (by omega) (by omega),
        Expr.option?_decode_encodeOption base n (by omega) (by omega)]
  | .field record label, n + 1, hn, h => by
      simp only [ExprShape.encode, Data.depth_choice, Data.depth, Data.depthItems] at h
      simp [ExprShape.encode, ExprShape.decode, Expr.decode_encode record n (by omega) (by omega)]
  | .ifThenElse condition onTrue onFalse, n + 1, hn, h => by
      simp only [ExprShape.encode, Data.depth_choice, Data.depth, Data.depthItems] at h
      simp [ExprShape.encode, ExprShape.decode,
        Expr.decode_encode condition n (by omega) (by omega),
        Expr.decode_encode onTrue n (by omega) (by omega),
        Expr.option?_decode_encodeOption onFalse n (by omega) (by omega)]
  | .sequence first second, n + 1, hn, h => by
      simp only [ExprShape.encode, Data.depth_choice, Data.depth, Data.depthItems] at h
      simp [ExprShape.encode, ExprShape.decode, Expr.decode_encode first n (by omega) (by omega),
        Expr.decode_encode second n (by omega) (by omega)]
  | .constraint expr type, n + 1, hn, h => by
      simp only [ExprShape.encode, Data.depth_choice, Data.depth, Data.depthItems] at h
      simp [ExprShape.encode, ExprShape.decode, Expr.decode_encode expr n (by omega) (by omega),
        TypeExpr.decode_encode fmt type n (by omega) (by omega)]
  | .openIn decl body, n + 1, hn, h => by
      simp only [ExprShape.encode, Data.depth_choice, Data.depth, Data.depthItems] at h
      simp [ExprShape.encode, ExprShape.decode, OpenDecl.decode_encode fmt decl (by omega),
        Expr.decode_encode body n (by omega) (by omega)]
  | .extension ext, n + 1, hn, h => by
      simp only [ExprShape.encode, Data.depth_choice] at h
      simp [ExprShape.encode, ExprShape.decode, Extension.decode_encode fmt ext (by omega)]

theorem Expr.mapM_decode_encodeItems : (es : List (Expr π)) → (n : Nat) → n ≤ fmt.bound →
    Data.depthItems (Expr.encodeItems fmt.encode es) ≤ n →
    (Expr.encodeItems fmt.encode es).mapM (Expr.decode fmt.decode n) = some es
  | [], _, _, _ => rfl
  | e :: rest, n, hn, h => by
      rw [Expr.encodeItems, Data.depthItems] at h
      simp [Expr.encodeItems, Expr.decode_encode e n hn (by omega),
        Expr.mapM_decode_encodeItems rest n hn (by omega)]

/-- A part that may be absent is read back in both cases. -/
theorem Expr.option?_decode_encodeOption : (e : Option (Expr π)) → (n : Nat) → n ≤ fmt.bound →
    (Expr.encodeOption fmt.encode e).depth ≤ n →
    Data.option? (Expr.decode fmt.decode n) (Expr.encodeOption fmt.encode e) = some e
  | none, _, _, _ => rfl
  | some e, n, hn, h => by
      have hnull : e.encode fmt.encode ≠ .null := by cases e; exact nofun
      rw [Expr.encodeOption] at h ⊢
      rw [Data.option?_of_ne_null hnull, Expr.decode_encode e n hn h, Option.map_some]

/-- Arguments are read as pairs of a label and an expression. -/
theorem Expr.mapM_decode_encodeArgs : (args : List (ArgLabel × Expr π)) →
    (n : Nat) → n ≤ fmt.bound → Data.depthItems (Expr.encodeArgs fmt.encode args) ≤ n →
    (Expr.encodeArgs fmt.encode args).mapM
      (Data.pair? ArgLabel.decode (Expr.decode fmt.decode n)) = some args
  | [], _, _, _ => rfl
  | (label, e) :: rest, n, hn, h => by
      simp only [Expr.encodeArgs, Data.depthItems, Data.depth] at h
      simp [Expr.encodeArgs, Data.pair?_list, Expr.decode_encode e n hn (by omega),
        Expr.mapM_decode_encodeArgs rest n hn (by omega)]

/-- Fields are read as pairs of a label and an expression. -/
theorem Expr.mapM_decode_encodeFields : (fields : List (Located QualName × Expr π)) →
    (n : Nat) → n ≤ fmt.bound → Data.depthItems (Expr.encodeFields fmt.encode fields) ≤ n →
    (Expr.encodeFields fmt.encode fields).mapM
      (Data.pair? decodeQualName (Expr.decode fmt.decode n)) = some fields
  | [], _, _, _ => rfl
  | (label, e) :: rest, n, hn, h => by
      simp only [Expr.encodeFields, Data.depthItems, Data.depth] at h
      simp [Expr.encodeFields, Data.pair?_list, Expr.decode_encode e n hn (by omega),
        Expr.mapM_decode_encodeFields rest n hn (by omega)]

/-- Cases are read back, with their guards. -/
theorem Case.decode_encode : (c : Case π) → (n : Nat) → n ≤ fmt.bound →
    (c.encode fmt.encode).depth ≤ n → Case.decode fmt.decode n (c.encode fmt.encode) = some c
  | _, 0, _, h => absurd h (Data.not_depth_le_zero _)
  | ⟨pattern, guard, body⟩, n + 1, hn, h => by
      simp only [Case.encode, Data.depth, Data.depthMembers] at h
      simp [Case.encode, Case.decode, Pattern.decode_encode fmt pattern n (by omega) (by omega),
        Expr.option?_decode_encodeOption guard n (by omega) (by omega),
        Expr.decode_encode body n (by omega) (by omega)]

theorem Case.mapM_decode_encodeItems : (cases : List (Case π)) → (n : Nat) → n ≤ fmt.bound →
    Data.depthItems (Case.encodeItems fmt.encode cases) ≤ n →
    (Case.encodeItems fmt.encode cases).mapM (Case.decode fmt.decode n) = some cases
  | [], _, _, _ => rfl
  | c :: rest, n, hn, h => by
      rw [Case.encodeItems, Data.depthItems] at h
      simp [Case.encodeItems, Case.decode_encode c n hn (by omega),
        Case.mapM_decode_encodeItems rest n hn (by omega)]

/-- Bindings are read back, with their attributes. -/
theorem Binding.decode_encode : (b : Binding π) → (n : Nat) → n ≤ fmt.bound →
    (b.encode fmt.encode).depth ≤ n → Binding.decode fmt.decode n (b.encode fmt.encode) = some b
  | _, 0, _, h => absurd h (Data.not_depth_le_zero _)
  | ⟨pattern, expr, attributes, span⟩, n + 1, hn, h => by
      simp only [Binding.encode, Data.depth, Data.depthMembers] at h
      simp [Binding.encode, Binding.decode,
        Pattern.decode_encode fmt pattern n (by omega) (by omega),
        Expr.decode_encode expr n (by omega) (by omega),
        Attribute.decodeAll_encodeAll fmt attributes (by omega)]

theorem Binding.mapM_decode_encodeItems : (bindings : List (Binding π)) → (n : Nat) →
    n ≤ fmt.bound → Data.depthItems (Binding.encodeItems fmt.encode bindings) ≤ n →
    (Binding.encodeItems fmt.encode bindings).mapM (Binding.decode fmt.decode n) = some bindings
  | [], _, _, _ => rfl
  | b :: rest, n, hn, h => by
      rw [Binding.encodeItems, Data.depthItems] at h
      simp [Binding.encodeItems, Binding.decode_encode b n hn (by omega),
        Binding.mapM_decode_encodeItems rest n hn (by omega)]

end

end DeriveKit
