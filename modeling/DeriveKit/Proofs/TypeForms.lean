import DeriveKit.Proofs.ReadType

/-!
# DeriveKit.Proofs.TypeForms

What is read off the text of each form of type, given that the texts of its parts are read. There is
one lemma for each form, named for the position that the form can stand in: `readsAtom_var`,
`readsAtom_constr`, `readsAtom_package`, `readsAtom_object` and `readsAtom_variant` stand anywhere,
`readsProduct_tuple` between arrows, and `readsType_arrow`, `readsType_aliased` and `readsType_poly`
reach up to the end.

The bounds of a variant are written at its two ends; `bounds_boundSign` puts them together again.
-/

namespace DeriveKit

namespace TypeExpr

variable {π ρ τ : Type} {text : String} {t : TypeExpr ρ} {name : QualName} {depth : Nat}

/-! ## words -/

/-- At the beginning of a name only a word can be read, which is `_` or the name of a type. -/
theorem readAtom_of_isNameStart {c : Char} (h : isNameStart c) (inner : Reader (TypeExpr ρ))
    (cs : List Char) : readAtom inner (c :: cs) = readWord (c :: cs) := by
  unfold readAtom
  split
  case h_5 => rfl
  all_goals
    rename_i heq
    obtain ⟨rfl, -⟩ := List.cons.inj heq
    exact absurd h (by decide)

/-- `_` is read as the type that says nothing. -/
theorem readsAtom_any : ReadsAtom "_" (any .generated : TypeExpr ρ) := by
  intro depth _ rest hrest
  have hword : readAtom (read depth) ("_".toList ++ rest) =
      readWord (ρ := ρ) ("_".toList ++ rest) :=
    readAtom_of_isNameStart (c := '_') rfl (read depth) rest
  rw [hword, readWord, expect_append, readQualName_of_reserved (by decide) rest hrest]

/-- A name without arguments is read as a type constructor. -/
theorem readsAtom_named (h : name.isNamed) :
    ReadsAtom name.text (constr name [] .generated : TypeExpr ρ) := by
  intro depth _ rest hrest
  obtain ⟨c, cs, htext, hstart⟩ := QualName.exists_isNameStart_of_isNamed h
  have hread := reads_readQualName h rest hrest
  rw [htext, List.cons_append] at hread ⊢
  rw [readAtom_of_isNameStart hstart, readWord, hread]

/-- A name after a quote is read as a type variable. -/
theorem reads_var {v : String} (h : isName v) (inner : Reader (TypeExpr ρ)) :
    Reads (readAtom inner) (Ends isNameChar) ("'" ++ v) (var v .generated) := by
  intro rest hrest
  have hopen : ("'" ++ v).toList ++ rest = '\x27' :: (v.toList ++ rest) := by simp
  rw [hopen, readAtom, reads_readName h rest hrest]
  rfl

theorem ends_isNameChar {cs : List Char} (h : Ends isPathChar cs) : Ends isNameChar cs := by
  cases cs with
  | nil => trivial
  | cons c cs =>
      exact Bool.eq_false_iff.2 fun hc =>
        absurd (isPathChar_of_isNameChar hc) (Bool.eq_false_iff.1 h)

theorem readsAtom_var {v : String} (h : isName v) :
    ReadsAtom ("'" ++ v) (var v .generated : TypeExpr ρ) :=
  fun depth _ rest hrest => reads_var h (read depth) rest (ends_isNameChar hrest)

/-! ## forms with parts -/

section

variable {ts : List τ} {f : τ → String} {g : τ → TypeExpr ρ}

/-- Types with separators between them are read one by one. -/
theorem sepBy_read {sep : String} {rest : List Char} (h : ∀ t ∈ ts, ReadsType (f t) (g t))
    (hts : ts ≠ []) (hdepth : (joinWith sep (ts.map f)).length < depth)
    (hsep : ∀ cs, Closing (sep.toList ++ cs)) (hrest : Closing rest)
    (hend : expect sep rest = none) :
    sepBy sep (read depth) ((joinWith sep (ts.map f)).toList ++ rest) = some (ts.map g, rest) := by
  refine sepBy_joinWith (fun t ht => h t ht depth ?_) hts ?_ hsep hrest (after_of_expect hend)
  · exact Nat.lt_of_le_of_lt (length_le_length_joinWith sep (List.mem_map_of_mem ht)) hdepth
  · rintro rfl
    exact absurd hend (by simp [expect, dropLead])

/-- Two or more types with stars between them are read as a tuple. -/
theorem readsProduct_tuple (h : ∀ t ∈ ts, ReadsOperand (f t) (g t)) (hts : 2 ≤ ts.length) :
    ReadsProduct (joinWith " * " (ts.map f)) (tuple (ts.map g) .generated) := by
  obtain ⟨a, b, ts, rfl⟩ := exists_cons_cons hts
  intro depth hdepth rest hrest
  have hlength : ∀ t ∈ a :: b :: ts, (f t).length ≤ depth := fun t ht =>
    Nat.le_trans (length_le_length_joinWith " * " (List.mem_map_of_mem ht)) hdepth
  have hoperands := sepBy_joinWith (fun t ht => (h t ht).reads (hlength t ht))
    (List.cons_ne_nil a _) (by decide) operandStops_times hrest.toOperandStops
    (after_of_expect hrest.not_multiplied)
  rw [readProduct, hoperands]
  rfl

/-- Two or more arguments in parentheses before a name are read as its arguments. -/
theorem readsAtom_constr (h : ∀ t ∈ ts, ReadsType (f t) (g t)) (hts : 2 ≤ ts.length)
    (hname : name.isNamed) :
    ReadsAtom ("(" ++ joinWith ", " (ts.map f) ++ ") " ++ name.text)
      (constr name (ts.map g) .generated) := by
  obtain ⟨a, b, ts, rfl⟩ := exists_cons_cons hts
  intro depth hdepth rest hrest
  have hlength : (joinWith ", " ((a :: b :: ts).map f)).length < depth := by
    have hparen : "(".length = 1 := rfl
    simp only [String.length_append] at hdepth
    omega
  have hargs : sepBy ", " (read depth) ((joinWith ", " ((a :: b :: ts).map f)).toList ++
      (") ".toList ++ (name.text.toList ++ rest))) =
        some ((a :: b :: ts).map g, ") ".toList ++ (name.text.toList ++ rest)) :=
    sepBy_read h (List.cons_ne_nil a _) hlength
      (fun cs => .lead (s := ",") (by decide) (' ' :: cs))
      (.lead (s := ")") (by decide) (' ' :: _)) (expect_of_clash (by decide) _)
  have hopen : ("(" ++ joinWith ", " ((a :: b :: ts).map f) ++ ") " ++ name.text).toList ++ rest =
      '(' :: ((joinWith ", " ((a :: b :: ts).map f)).toList ++
        (") ".toList ++ (name.text.toList ++ rest))) := by
    simp
  rw [hopen, readAtom, readParens, hargs]
  simp only [List.map_cons, expect_append, Option.bind_eq_bind, Option.bind_some,
    reads_readQualName hname rest hrest]

end

/-! ## packages, objects and variants -/

/-- No product is read where no operand is. -/
theorem readProduct_of_none {inner : Reader (TypeExpr ρ)} {cs : List Char}
    (h : readAtom inner cs = none) : readProduct inner cs = none := by
  have hoperand : readOperand inner cs = none := by
    rw [readOperand, h, Option.bind_eq_bind, Option.bind_none]
  rw [readProduct, sepBy_of_none hoperand, Option.bind_eq_bind, Option.bind_none]

/-- Nothing is read where neither an atom stands nor the label of an optional argument. -/
theorem read_of_none {cs : List Char} (depth : Nat)
    (hatom : ∀ inner : Reader (TypeExpr ρ), readAtom inner cs = none)
    (hlabel : expect "?" cs = none) : read (ρ := ρ) depth cs = none := by
  cases depth with
  | zero => rfl
  | succ depth =>
      rw [read, readStep, readProduct_of_none (hatom _)]
      simp only [hlabel, Option.bind_eq_bind, Option.bind_none]

/-- No atom begins with a sign other than the opening ones. -/
theorem readAtom_of_sign {c : Char} (h : isPathChar c = false) (hc : c ∉ ['(', '<', '['])
    (inner : Reader (TypeExpr ρ)) (cs : List Char) : readAtom inner (c :: cs) = none := by
  have hword : expect "_" (c :: cs) = none := by
    have hne : '_' ≠ c := by
      rintro rfl
      exact absurd h (by decide)
    simp [expect, dropLead, hne]
  simp only [List.mem_cons, List.not_mem_nil, or_false, not_or] at hc
  obtain ⟨hparen, hangle, hbracket⟩ := hc
  unfold readAtom
  split
  case h_5 => rw [readWord, hword, readQualName_of_ends (c :: cs) h]
  all_goals
    rename_i heq
    obtain ⟨rfl, -⟩ := List.cons.inj heq
    first
      | exact absurd rfl hparen
      | exact absurd rfl hangle
      | exact absurd rfl hbracket
      | exact absurd h (by decide)

/-- A module type in parentheses after `module` is read as a package. -/
theorem readsAtom_package (h : name.isNamed) :
    ReadsAtom ("(module " ++ name.text ++ ")")
      (made (.package (.generated name)) : TypeExpr ρ) := by
  intro depth _ rest _
  have hmodule : read (ρ := ρ) depth
    ("module ".toList ++ (name.text.toList ++ (")".toList ++ rest)))
      = none := by
    refine read_of_none depth (fun inner => ?_) (expect_of_clash (by decide) _)
    have hword := readQualName_of_reserved (w := "module") (by decide)
      (' ' :: (name.text.toList ++ (")".toList ++ rest))) rfl
    have hstart : readAtom inner ("module ".toList ++ (name.text.toList ++ (")".toList ++ rest))) =
        readWord ("module".toList ++ ' ' :: (name.text.toList ++ (")".toList ++ rest))) :=
      readAtom_of_isNameStart (c := 'm') rfl inner _
    rw [hstart, readWord, hword, expect_of_clash (by decide)]
  have hopen : ("(module " ++ name.text ++ ")").toList ++ rest =
      '(' :: ("module ".toList ++ (name.text.toList ++ (")".toList ++ rest))) := by
    simp
  have hends : Ends isPathChar (")".toList ++ rest) := rfl
  rw [hopen, readAtom, readParens, sepBy_of_none hmodule]
  simp only [expect_append, Option.bind_eq_bind, Option.bind_some,
    reads_readQualName h _ hends]

/-- A label and a type with a colon between them are read as a method. -/
theorem reads_method {label : String} (hlabel : isName label) (h : ReadsType text t)
    (hdepth : text.length < depth) :
    Reads (readMethod (read depth)) Closing (label ++ " : " ++ text) (.generated label, t) := by
  intro rest hrest
  have hends : Ends isNameChar (" : ".toList ++ (text.toList ++ rest)) := rfl
  rw [String.toList_append, String.toList_append, List.append_assoc, List.append_assoc, readMethod,
    reads_readName hlabel _ hends]
  simp only [expect_append, Option.bind_eq_bind, Option.bind_some, h depth hdepth rest hrest]

theorem readMethod_of_ends (cs : List Char) (h : Ends isNameChar cs) (inner : Reader (TypeExpr ρ)) :
    readMethod inner cs = none := by
  rw [readMethod, readName_of_ends h, Option.bind_eq_bind, Option.bind_none]

section

variable {ms : List τ} {label f : τ → String} {g : τ → TypeExpr ρ}

/-- Methods are read one by one, up to what cannot be another one. -/
theorem sepBy_readMethod {rest : List Char}
    (h : ∀ m ∈ ms, isName (label m) ∧ ReadsType (f m) (g m)) (hms : ms ≠ [])
    (hdepth : (joinWith "; " (ms.map fun m => label m ++ " : " ++ f m)).length ≤ depth)
    (hrest : Closing rest) (hend : after "; " (readMethod (read (ρ := ρ) depth)) rest = none) :
    sepBy "; " (readMethod (read depth))
        ((joinWith "; " (ms.map fun m => label m ++ " : " ++ f m)).toList ++ rest) =
      some (ms.map fun m => (.generated (label m), g m), rest) := by
  refine sepBy_joinWith (fun m hm => reads_method (h m hm).1 (h m hm).2 ?_) hms (by decide)
    (fun cs => .lead (s := ";") (by decide) (' ' :: cs)) hrest hend
  have hle := length_le_length_joinWith "; "
    (List.mem_map_of_mem (f := fun m => label m ++ " : " ++ f m) hm)
  simp only [String.length_append] at hle
  have : " : ".length = 3 := rfl
  omega

/-- An object without methods is read up to its closing bracket. -/
theorem readObject_nil (inner : Reader (TypeExpr ρ)) (openness : Openness) (rest : List Char) :
    readObject inner
        ((joinAll (openness.memberTexts.map (" " ++ ·)) ++ " >").toList ++ rest) =
      some (made (.object [] openness), rest) := by
  have hnone : ∀ c cs, isNameChar c = false →
      after " " (sepBy "; " (readMethod inner)) (" ".toList ++ c :: cs) = none :=
    fun c cs hc => (after_append " " _).trans (sepBy_of_none (readMethod_of_ends (c :: cs) hc _) _)
  cases openness with
  | closed =>
      have htext : (joinAll (Openness.closed.memberTexts.map (" " ++ ·)) ++ " >").toList ++ rest =
          " >".toList ++ rest := rfl
      have hmethods : after " " (sepBy "; " (readMethod inner)) (" >".toList ++ rest) = none :=
        hnone '>' rest rfl
      rw [htext, readObject, hmethods]
      simp only [expect_append]
  | extensible =>
      have htext : (joinAll (Openness.extensible.memberTexts.map (" " ++ ·)) ++
        " >").toList ++ rest =
          " .. >".toList ++ rest := rfl
      have hmethods : after " " (sepBy "; " (readMethod inner)) (" .. >".toList ++ rest) = none :=
        hnone '.' ('.' :: ' ' :: '>' :: rest) rfl
      have hopen : expect " >" (" .. >".toList ++ rest) = none := expect_of_clash (by decide) rest
      rw [htext, readObject, hmethods]
      simp only [expect_append, hopen]

/-- An object is read with all its methods, in their order. -/
theorem readObject_methods (h : ∀ m ∈ ms, isName (label m) ∧ ReadsType (f m) (g m)) (hms : ms ≠ [])
    (hdepth : (joinWith "; " (ms.map fun m => label m ++ " : " ++ f m)).length ≤ depth)
    (openness : Openness) (rest : List Char) :
    readObject (read depth)
        ((" " ++ joinWith "; " ((ms.map fun m => label m ++ " : " ++ f m) ++
          openness.memberTexts) ++ " >").toList ++ rest) =
      some (made (.object (ms.map fun m => (.generated (label m), g m)) openness), rest) := by
  cases openness with
  | closed =>
      have hmethods := sepBy_readMethod h hms hdepth (.lead (s := " >") (by decide) rest)
        (after_of_expect (expect_of_clash (by decide) rest))
      rw [Openness.memberTexts, List.append_nil, String.toList_append, String.toList_append,
        List.append_assoc, List.append_assoc, readObject, after_append, hmethods]
      simp only [expect_append]
  | extensible =>
      have hend : after "; " (readMethod (read (ρ := ρ) depth)) ("; .. >".toList ++ rest) = none :=
        (after_append "; " ('.' :: '.' :: ' ' :: '>' :: rest)).trans
          (readMethod_of_ends ('.' :: _) rfl _)
      have hclosing : Closing ("; .. >".toList ++ rest) :=
        .lead (s := ";") (by decide) (' ' :: '.' :: '.' :: ' ' :: '>' :: rest)
      have hmethods := sepBy_readMethod h hms hdepth hclosing hend
      have htail : ∀ s : String, ((s ++ "; " ++ "..") ++ " >").toList ++ rest =
          s.toList ++ ("; .. >".toList ++ rest) := by
        simp
      have hopen : expect " >" ("; .. >".toList ++ rest) = none := expect_of_clash (by decide) rest
      rw [Openness.memberTexts, joinWith_append_singleton _ _ (by simpa using hms),
        String.append_assoc, String.toList_append, List.append_assoc, htail, readObject,
        after_append, hmethods]
      simp only [expect_append, hopen]

/-- Methods between angle brackets are read as an object, open or closed. -/
theorem readsAtom_object (h : ∀ m ∈ ms, isName (label m) ∧ ReadsType (f m) (g m))
    (openness : Openness) :
    let members := (ms.map fun m => label m ++ " : " ++ f m) ++ openness.memberTexts
    ReadsAtom ("<" ++ (if members.isEmpty then "" else " " ++ joinWith "; " members) ++ " >")
      (made (.object (ms.map fun m => (.generated (label m), g m)) openness)) := by
  intro members depth hdepth rest _
  have hopen : ∀ s : String, ("<" ++ s ++ " >").toList ++ rest =
      '<' :: ((s ++ " >").toList ++ rest) := by
    simp
  by_cases hms : ms = []
  · have hmembers : (if members.isEmpty then "" else " " ++ joinWith "; " members) =
        joinAll (openness.memberTexts.map (" " ++ ·)) := by
      subst hms
      cases openness <;> rfl
    rw [hopen, hmembers, readAtom, readObject_nil, hms, List.map_nil]
  · have hmembers : members.isEmpty = false := by simp [members, hms]
    rw [hmembers, if_neg Bool.false_ne_true] at hdepth ⊢
    refine (congrArg _ (hopen _)).trans (readObject_methods h hms ?_ openness rest)
    have hle := length_joinWith_le_append "; " (ms.map fun m => label m ++ " : " ++ f m)
      openness.memberTexts
    simp only [String.length_append, members] at hdepth
    omega

end

/-! ### rows -/

/-- No type begins with a sign other than the opening ones. -/
theorem read_of_sign {c : Char} (h : isPathChar c = false) (hc : c ∉ ['?', '(', '<', '['])
    (depth : Nat) (cs : List Char) : read (ρ := ρ) depth (c :: cs) = none := by
  obtain ⟨hquestion, hc⟩ := not_or.1 (mt List.mem_cons.2 hc)
  refine read_of_none depth (fun inner => readAtom_of_sign h hc inner cs) ?_
  simp [expect, dropLead, Ne.symm hquestion]

/-- What may stand after a row. -/
inductive RowStops : List Char → Prop
  | next (cs : List Char) : RowStops (" |".toList ++ cs)
  | bound (cs : List Char) : RowStops (" >".toList ++ cs)
  | close (cs : List Char) : RowStops (" ]".toList ++ cs)

theorem RowStops.closing {cs : List Char} (h : RowStops cs) : Closing cs := by
  cases h with
  | next cs | bound cs | close cs => exact .lead (by decide) cs

theorem RowStops.not_joined {cs : List Char} (h : RowStops cs) : expect " & " cs = none := by
  cases h with
  | next cs | bound cs | close cs => exact expect_of_clash (by decide) cs

/-- The text of a row is read as `r`. -/
def ReadsRow (text : String) (r : Row ρ) : Prop :=
  ∀ depth, text.length < depth → Reads (readRow (read depth)) RowStops text r

/-- A type among the rows is read as an inherited row. -/
theorem readsRow_inherit (h : ReadsType text t) :
    ReadsRow text (⟨.inherit t, .generated, []⟩ : Row ρ) := by
  intro depth hdepth rest hrest
  rw [readRow, h depth hdepth rest hrest.closing]

/-- After a tick, a row is a tag and what follows it. -/
theorem readRow_tick {label : String} (hlabel : isName label) {cs : List Char}
    (hcs : Ends isNameChar cs) :
    readRow (read (ρ := ρ) depth) (("`" ++ label).toList ++ cs) =
      readTag (read depth) label cs := by
  have hnone : read (ρ := ρ) depth ("`".toList ++ (label.toList ++ cs)) = none :=
    read_of_sign (c := '`') rfl (by decide) depth (label.toList ++ cs)
  rw [String.toList_append, List.append_assoc, readRow, hnone]
  simp only [expect_append, reads_readName hlabel cs hcs, Option.bind_eq_bind, Option.bind_some]

/-- A tag alone is read as a constant. -/
theorem readsRow_tag {label : String} (hlabel : isName label) :
    ReadsRow ("`" ++ label) (⟨.tag (.generated label) true [], .generated, []⟩ : Row ρ) := by
  intro depth _ rest hrest
  rw [readRow_tick hlabel (ends_isNameChar hrest.closing.productStops.ends), readTag,
    hrest.closing.expect_eq_none (by decide)]

/-- A tag before types is read with its arguments, which may be wanted besides the constant. -/
theorem readsRow_tag_args {ts : List τ} {f : τ → String} {g : τ → TypeExpr ρ} {label : String}
    (hlabel : isName label) (h : ∀ t ∈ ts, ReadsType (f t) (g t)) (hts : ts ≠ [])
    (constant : Bool) :
    ReadsRow ("`" ++ label ++ (if constant then " of & " else " of ") ++
        joinWith " & " (ts.map f))
      (⟨.tag (.generated label) constant (ts.map g), .generated, []⟩ : Row ρ) := by
  intro depth hdepth rest hrest
  have hlength : (joinWith " & " (ts.map f)).length < depth := by
    simp only [String.length_append] at hdepth
    omega
  have hargs := sepBy_read h hts hlength (fun cs => .lead (s := " &") (by decide) (' ' :: cs))
    hrest.closing hrest.not_joined
  have hends : ∀ cs : List Char, Ends isNameChar (" of ".toList ++ cs) := fun _ => rfl
  rw [String.append_assoc, String.toList_append, List.append_assoc]
  cases constant with
  | false =>
      have hof : ∀ s : String, ((if false then " of & " else " of ") ++ s).toList ++ rest =
          " of ".toList ++ (s.toList ++ rest) := by
        simp
      rw [hof, readRow_tick hlabel (hends _), readTag, expect_append]
      simp only [hargs]
  | true =>
      have hof : ∀ s : String, ((if true then " of & " else " of ") ++ s).toList ++ rest =
          " of ".toList ++ ("& ".toList ++ (s.toList ++ rest)) := by
        simp
      have hnone : ∀ cs, sepBy " & " (read (ρ := ρ) depth) ("& ".toList ++ cs) = none := fun cs =>
        sepBy_of_none (read_of_sign (c := '&') rfl (by decide) depth (' ' :: cs)) _
      rw [hof, readRow_tick hlabel (hends _), readTag, expect_append]
      simp only [hnone, expect_append, hargs, Option.bind_eq_bind, Option.bind_some]

/-! ### variants -/

/-- The tags of a lower bound that is written out are read back. -/
theorem readLower_lowerText {lower : Option (List String)} (h : ∀ tags ∈ lower, tags.all isName)
    (rest : List Char) :
    readLower ((lowerText lower).toList ++ (" ]".toList ++ rest)) =
      (lower.filter fun tags => !tags.isEmpty, " ]".toList ++ rest) := by
  have hnone : readLower (" ]".toList ++ rest) = (none, " ]".toList ++ rest) := by
    rw [readLower, expect_of_clash (by decide)]
  match lower with
  | none => exact hnone
  | some [] => exact hnone
  | some (tag :: tags) =>
      have hmany : many (after " `" readName)
          ((leadEach " `" (tag :: tags)).toList ++ (" ]".toList ++ rest)) =
            (tag :: tags, " ]".toList ++ rest) :=
        many_readName (List.all_eq_true.1 (h (tag :: tags) rfl)) (by decide) (fun _ => rfl) rfl
          (expect_of_clash (by decide) rest)
      rw [lowerText, String.toList_append, List.append_assoc, readLower, expect_append]
      simp only [hmany]
      rfl

section

variable {rs : List τ} {f : τ → String} {g : τ → Row ρ} {lower : Option (List String)}

/-- The list of tags that must be there, or the closing bracket, ends the rows. -/
theorem rowStops_lower (lower : Option (List String)) (rest : List Char) :
    RowStops ((lowerText lower).toList ++ (" ]".toList ++ rest)) := by
  match lower with
  | none => exact .close rest
  | some [] => exact .close rest
  | some (tag :: tags) =>
      rw [lowerText, String.toList_append, List.append_assoc]
      exact .bound _

/-- The rows of a variant are read one by one, up to the lower bound. -/
theorem sepBy_readRow (h : ∀ r ∈ rs, ReadsRow (f r) (g r))
    (hdepth : (joinWith " | " (rs.map f)).length < depth) {rest : List Char} (hrest : RowStops rest)
    (hend : expect " | " rest = none) :
    (sepBy " | " (readRow (read depth)) ((joinWith " | " (rs.map f)).toList ++ rest)).getD
      ([], (joinWith " | " (rs.map f)).toList ++ rest) = (rs.map g, rest) := by
  by_cases hrs : rs = []
  · subst hrs
    have hrow : readRow (read (ρ := ρ) depth) rest = none := by
      obtain ⟨cs, rfl⟩ : ∃ cs, rest = ' ' :: cs := by
        cases hrest with
        | next cs | bound cs | close cs => exact ⟨_ :: cs, rfl⟩
      have htick : expect "`" (' ' :: cs) = none := expect_of_clash (l := " ") (by decide) cs
      rw [readRow, read_of_sign rfl (by decide) depth cs, htick]
      rfl
    rw [List.map_nil, joinWith, String.toList_empty, List.nil_append, sepBy_of_none hrow,
      Option.getD_none, List.map_nil]
  · rw [sepBy_joinWith (fun r hr => h r hr depth ?_) hrs (by decide) (fun cs => .next (' ' :: cs))
      hrest (after_of_expect hend), Option.getD_some]
    exact Nat.lt_of_le_of_lt (length_le_length_joinWith " | " (List.mem_map_of_mem hr)) hdepth

/-- The sign of a variant. -/
def boundSign : Openness → Option (List String) → Option Openness
  | .extensible, _ => some .extensible
  | .closed, some _ => some .closed
  | .closed, none => none

/-- The sign at the opening bracket and the list of tags at the end say the bounds of a variant. -/
theorem bounds_boundSign {openness : Openness} (h : isBound openness lower) :
    bounds (boundSign openness lower) (lower.filter fun tags => !tags.isEmpty) =
      (openness, lower) := by
  match openness, lower, h with
  | .closed, none, _ | .closed, some [], _ | .closed, some (_ :: _), _ => rfl
  | .extensible, none, _ | .extensible, some (_ :: _), _ => rfl

theorem readVariant_boundText (inner : Reader (TypeExpr ρ)) (openness : Openness)
    (lower : Option (List String)) (cs : List Char) :
    readVariant inner ((boundText openness lower ++ " ").toList ++ cs) =
      readRows inner (boundSign openness lower) cs := by
  have hclosed : expect " " ("< ".toList ++ cs) = none := expect_of_clash (by decide) cs
  have hopen : expect " " ("> ".toList ++ cs) = none ∧ expect "< " ("> ".toList ++ cs) = none :=
    ⟨expect_of_clash (by decide) cs, expect_of_clash (by decide) cs⟩
  match openness, lower with
  | .closed, none =>
      have htext : (boundText .closed none ++ " ").toList ++ cs = " ".toList ++ cs := rfl
      rw [htext, readVariant]
      simp only [expect_append]
      rfl
  | .closed, some tags =>
      have htext : (boundText .closed (some tags) ++ " ").toList ++ cs = "< ".toList ++ cs := rfl
      rw [htext, readVariant, hclosed]
      simp only [expect_append]
      rfl
  | .extensible, lower =>
      have htext : (boundText .extensible lower ++ " ").toList ++ cs = "> ".toList ++ cs := by
        cases lower <;> rfl
      rw [htext, readVariant, hopen.1, hopen.2]
      simp only [expect_append]
      cases lower <;> rfl

/-- Rows between square brackets are read as a variant with its bounds. -/
theorem readsAtom_variant (h : ∀ r ∈ rs, ReadsRow (f r) (g r)) {openness : Openness}
    (hbound : isBound openness lower) :
    ReadsAtom ("[" ++ boundText openness lower ++ " " ++ joinWith " | " (rs.map f) ++
        lowerText lower ++ " ]")
      (made (.variant (rs.map g) openness lower)) := by
  intro depth hdepth rest _
  have htags : ∀ tags ∈ lower, tags.all isName := by
    rintro tags rfl
    match openness, tags, hbound with
    | .closed, [], _ => rfl
    | .closed, _ :: _, hbound | .extensible, _ :: _, hbound => exact hbound
  have hend : expect " | " ((lowerText lower).toList ++ (" ]".toList ++ rest)) = none := by
    match lower with
    | none | some [] => exact expect_of_clash (l := " ]") (by decide) rest
    | some (tag :: tags) =>
        rw [lowerText, String.toList_append, List.append_assoc]
        exact expect_of_clash (l := " >") (by decide) _
  have hlength : (joinWith " | " (rs.map f)).length < depth := by
    have hbracket : "[".length = 1 := rfl
    simp only [String.length_append] at hdepth
    omega
  have hrows := sepBy_readRow h hlength (rowStops_lower lower rest) hend
  have hopen : ("[" ++ boundText openness lower ++ " " ++ joinWith " | " (rs.map f) ++
      lowerText lower ++ " ]").toList ++ rest = '[' :: ((boundText openness lower ++ " ").toList ++
        ((joinWith " | " (rs.map f)).toList ++
          ((lowerText lower).toList ++ (" ]".toList ++ rest)))) := by
    simp
  rw [hopen, readAtom, readVariant_boundText, readRows, hrows]
  simp only [readLower_lowerText htags rest, expect_append, Option.bind_eq_bind, Option.bind_some,
    bounds_boundSign hbound]

end

/-! ## operators -/

section

variable {D C B : String} {d c b : TypeExpr ρ}

theorem Closing.ends_isNameChar {cs : List Char} (h : Closing cs) : Ends isNameChar cs :=
  TypeExpr.ends_isNameChar h.productStops.ends

/-- A type before an arrow is read as the domain of a function. -/
theorem reads_arrow (hd : ReadsProduct D d) (hc : ReadsType C c) (label : ArgLabel)
    (hdepth : (D ++ " -> " ++ C).length ≤ depth) :
    Reads (readArrow (read depth) label) Closing (D ++ " -> " ++ C)
      (made (.arrow label d c)) := by
  have harrow : " -> ".length = 4 := rfl
  simp only [String.length_append] at hdepth
  intro rest hrest
  rw [String.toList_append, String.toList_append, List.append_assoc, List.append_assoc, readArrow,
    hd depth (by omega) _ (productStops_arrow _)]
  simp only [expect_append, hc depth (by omega) rest hrest, Option.bind_eq_bind, Option.bind_some]

theorem text_simple {s : String} (h : isName s) : (QualName.simple s).text = s := by
  rw [QualName.text, QualName.simple, isOperator_of_isName h, if_neg Bool.false_ne_true]
  exact String.empty_append

/-- A function type is read back with its label. -/
theorem readsType_arrow (hd : ReadsProduct D d) (hc : ReadsType C c) {label : ArgLabel}
    (hlabel : label.isNamed) :
    ReadsType (label.typeText ++ D ++ " -> " ++ C) (made (.arrow label d c)) := by
  intro depth hdepth rest hrest
  obtain ⟨depth, rfl⟩ : ∃ n, depth = n + 1 := ⟨depth - 1, by omega⟩
  have harrow : " -> ".length = 4 := rfl
  simp only [String.length_append] at hdepth
  have hlength : (D ++ " -> " ++ C).length ≤ depth := by
    simp only [String.length_append]
    omega
  have hread := reads_arrow hd hc label hlength rest hrest
  rw [read, readStep]
  cases label with
  | positional =>
      rw [ArgLabel.typeText, String.empty_append, String.toList_append, String.toList_append,
        List.append_assoc, List.append_assoc, hd depth (by omega) _ (productStops_arrow _)]
      simp only [readRest, expect_append, hc depth (by omega) rest hrest, Option.bind_eq_bind,
        Option.bind_some]
  | labelled l =>
      have hl : l.length ≤ depth := by
        simp only [ArgLabel.typeText, String.length_append] at hdepth
        omega
      have hword := (readsAtom_named (ρ := ρ) (QualName.isNamed_simple hlabel)).operand.product
      rw [text_simple hlabel] at hword
      have htext : (ArgLabel.typeText (.labelled l) ++ D ++ " -> " ++ C).toList ++ rest =
          l.toList ++ (":".toList ++ ((D ++ " -> " ++ C).toList ++ rest)) := by
        simp [ArgLabel.typeText]
      have hnone : expect " -> " (":".toList ++ ((D ++ " -> " ++ C).toList ++ rest)) = none ∧
          expect " as '" (":".toList ++ ((D ++ " -> " ++ C).toList ++ rest)) = none :=
        ⟨expect_of_clash (by decide) _, expect_of_clash (by decide) _⟩
      rw [htext, hword depth hl _ (productStops_label _)]
      simp only [readRest, hnone, expect_append]
      exact hread
  | optional l =>
      have htext : (ArgLabel.typeText (.optional l) ++ D ++ " -> " ++ C).toList ++ rest =
          "?".toList ++ (l.toList ++ (":".toList ++ ((D ++ " -> " ++ C).toList ++ rest))) := by
        simp [ArgLabel.typeText]
      have hends : Ends isNameChar (":".toList ++ ((D ++ " -> " ++ C).toList ++ rest)) := rfl
      have hnone : readProduct (read (ρ := ρ) depth)
          ("?".toList ++ (l.toList ++
            (":".toList ++ ((D ++ " -> " ++ C).toList ++ rest)))) = none :=
        readProduct_of_none (readAtom_of_sign (c := '?') rfl (by decide) _ _)
      rw [htext, hnone]
      simp only [expect_append, reads_readName hlabel _ hends, Option.bind_eq_bind,
        Option.bind_some, hread]

/-- A name after `as` is read as the alias of the type before it. -/
theorem readsType_aliased (hb : ReadsProduct B b) {v : String} (hv : isName v) :
    ReadsType (B ++ " as '" ++ v) (made (.aliased b (.generated v))) := by
  intro depth hdepth rest hrest
  obtain ⟨depth, rfl⟩ : ∃ n, depth = n + 1 := ⟨depth - 1, by omega⟩
  simp only [String.length_append] at hdepth
  have hnone : expect " -> " (" as '".toList ++ (v.toList ++ rest)) = none :=
    expect_of_clash (by decide) _
  rw [read, readStep, String.toList_append, String.toList_append, List.append_assoc,
    List.append_assoc, hb _ (by omega) _ (productStops_aliased _)]
  simp only [readRest, hnone, expect_append, reads_readName hv rest hrest.ends_isNameChar,
    Option.bind_eq_bind, Option.bind_some]

/-- What stands after the first variable of a quantifier. -/
inductive PolyRest : List Char → Prop
  | more (cs : List Char) : PolyRest (" '".toList ++ cs)
  | body (cs : List Char) : PolyRest (". ".toList ++ cs)

theorem PolyRest.expect_eq_none {cs : List Char} (h : PolyRest cs) {w : String}
    (hmore : clash w.toList " '".toList) (hbody : clash w.toList ". ".toList) :
    expect w cs = none := by
  cases h with
  | more cs => exact expect_of_clash hmore cs
  | body cs => exact expect_of_clash hbody cs

theorem PolyRest.not_applied {cs : List Char} (h : PolyRest cs) :
    after " " readQualName cs = none := by
  cases h with
  | more cs => exact (after_append " " ('\x27' :: cs)).trans (readQualName_of_not_start rfl cs)
  | body cs => exact after_of_expect (expect_of_clash (by decide) cs)

/-- The first variable of a quantifier is read as a type. -/
theorem PolyRest.readProduct_var {cs : List Char} (h : PolyRest cs) {v : String} (hv : isName v)
    (inner : Reader (TypeExpr ρ)) :
    readProduct inner (("'" ++ v).toList ++ cs) = some (var v .generated, cs) := by
  have hends : Ends isNameChar cs := by
    cases h with
    | more cs | body cs => rfl
  have hmany := many_of_none h.not_applied
  have hnone : after " * " (readOperand inner) cs = none :=
    after_of_expect (h.expect_eq_none (by decide) (by decide))
  have hoperand : readOperand inner (("'" ++ v).toList ++ cs) = some (var v .generated, cs) := by
    simp only [readOperand, reads_var hv inner cs hends, hmany, Option.bind_eq_bind,
      Option.bind_some]
    rfl
  simp only [readProduct, sepBy, hoperand, many_of_none hnone, Option.bind_eq_bind,
    Option.bind_some]

/-- Quoted names before a full stop are read as quantified variables. -/
theorem readsType_poly (hb : ReadsType B b) {v : String} {vs : List String}
    (hv : ∀ w ∈ v :: vs, isName w) :
    ReadsType (joinWith " " ((v :: vs).map ("'" ++ ·)) ++ ". " ++ B)
      (made (.poly ((v :: vs).map .generated) b)) := by
  intro depth hdepth rest hrest
  obtain ⟨depth, rfl⟩ : ∃ n, depth = n + 1 := ⟨depth - 1, by omega⟩
  have hdot : ". ".length = 2 := rfl
  simp only [String.length_append] at hdepth
  have hlead : leadEach " " (vs.map ("'" ++ ·)) = leadEach " '" vs :=
    leadEach_map_append " " "'" vs
  have hpoly : PolyRest ((leadEach " '" vs).toList ++ (". ".toList ++ (B.toList ++ rest))) := by
    cases vs with
    | nil => exact .body _
    | cons w vs =>
        rw [leadEach, String.append_assoc, String.toList_append, List.append_assoc]
        exact .more _
  have hvars : many (after " '" readName)
      ((leadEach " '" vs).toList ++ (". ".toList ++ (B.toList ++ rest))) =
        (vs, ". ".toList ++ (B.toList ++ rest)) :=
    many_readName (fun w hw => hv w (List.mem_cons_of_mem v hw)) (by decide) (fun _ => rfl) rfl
      (expect_of_clash (by decide) _)
  have hread : (var v .generated : TypeExpr ρ).varName?.bind (readPoly (read depth) ·
      ((leadEach " '" vs).toList ++ (". ".toList ++ (B.toList ++ rest)))) =
      some (made (.poly ((v :: vs).map .generated) b), rest) := by
    have hname : (var v .generated : TypeExpr ρ).varName? = some v := rfl
    rw [hname, Option.bind_some, readPoly, hvars]
    simp only [expect_append, hb depth (by omega) rest hrest, Option.bind_eq_bind, Option.bind_some]
  have htext : (joinWith " " ((v :: vs).map ("'" ++ ·)) ++ ". " ++ B).toList ++ rest =
      ("'" ++ v).toList ++ ((leadEach " '" vs).toList ++ (". ".toList ++ (B.toList ++ rest))) := by
    simp [joinWith_cons, hlead]
  rw [htext, read, readStep, hpoly.readProduct_var (hv v List.mem_cons_self)]
  simp only [readRest, hread, hpoly.expect_eq_none (w := " -> ") (by decide) (by decide),
    hpoly.expect_eq_none (w := " as '") (by decide) (by decide),
    hpoly.expect_eq_none (w := ":") (by decide) (by decide)]

end

end TypeExpr

end DeriveKit
