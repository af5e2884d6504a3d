import DeriveKit.Proofs.ExprReading

/-!
# DeriveKit.Proofs.OpenForms

What is read off the text of the forms of expression that have no closing sign and reach as far as
they can: sequences, local bindings and openings, functions, matches and conditionals
(`readsTop_sequence`, `readsTop_letIn`, `readsTop_openIn`, `readsTop_lambda`, `readsTop_matchWith`,
`readsTop_ifThenElse`). Where another part follows, each of them ends at the word or sign that the
form around it goes on with.

Bindings (`ReadsBinding`) and cases (`ReadsCases`) come in lists; all but the last of them end at
the sign before the next one.
-/

namespace DeriveKit

namespace Expr

variable {ρ τ : Type} {text text' : String} {e e' : Expr ρ} {p : Pattern ρ} {cs : List Char}

/-! ## keywords -/

/-- A keyword begins no sequence, so the form that it opens is tried (`readTop`). -/
theorem readSequence_of_keyword {w : String} (hw : w ∈ keywords) (hcs : Ends isNameChar cs)
    (inner : Readers ρ) : readSequence inner (w.toList ++ cs) = none :=
  readSequence_of_vacant (vacant_of_keyword hw hcs) (readNumber_of_keyword hw cs) inner

/-- Nor does it begin a pattern. -/
theorem readAny_of_keyword {w : String} (hw : w ∈ keywords) (hcs : Ends isNameChar cs) :
    Pattern.readAny (ρ := ρ) (w.toList ++ cs) = none :=
  Pattern.readAny_of_vacant (vacant_of_keyword hw hcs) (readNumber_of_keyword hw cs)

/-- An expression that begins with a keyword is not read as a sequence. -/
theorem readsTop_of_keyword {w : String} (hw : w ∈ keywords)
    (hends : ∀ rest, Ends isNameChar (text.toList ++ rest))
    (h : ∀ depth, text.length < depth →
      Reads (firstOf [after "let " (readLet (read depth)), after "fun " (readLambda (read depth)),
        after "function" (readAs (fun cases => made (.function cases)) (readCases (read depth))),
        after "match " (readMatch (read depth)), after "if " (readIf (read depth))])
        TopClosing (w ++ text) e) : ReadsTop (w ++ text) e := by
  intro depth hdepth
  obtain ⟨depth, rfl⟩ : ∃ n, depth = n + 1 := ⟨depth - 1, by omega⟩
  have hlength : 0 < w.length := by
    obtain ⟨c, ds, hds, -⟩ := exists_isNameStart_of_keyword hw
    rw [← String.length_toList, hds, List.length_cons]
    omega
  rw [String.length_append] at hdepth
  refine (h depth (by omega)).later fun rest _ => ?_
  rw [String.toList_append, List.append_assoc]
  exact readSequence_of_keyword hw (hends rest) _

/-! ## sequences -/

/-- A sequence is read on the two sides of the semicolon; the second expression reaches as far as it
can. -/
theorem readsTop_sequence (he : ReadsElement text e) (h : ReadsTop text' e') :
    ReadsTop (text ++ "; " ++ text') (made (.sequence e e')) := by
  intro depth hdepth
  obtain ⟨depth, rfl⟩ : ∃ n, depth = n + 1 := ⟨depth - 1, by omega⟩
  have hsign : "; ".length = 2 := rfl
  rw [String.append_assoc] at hdepth ⊢
  simp only [String.length_append] at hdepth
  have hfirst : Reads (readElement (read depth)) ElementClosing text e := he (depth + 1) (by omega)
  have hsecond := ((h depth (by omega)).as fun e' => made (.sequence e e')).after "; "
  exact (hfirst.andThen hsecond.first fun rest _ => stopsAt_append (by decide) _ rest).first

/-! ## local bindings and openings -/

/-- The text of a binding is read as `b`. -/
def ReadsBinding (text : String) (b : Binding ρ) : Prop :=
  ∀ depth, text.length < depth → Reads (readBinding (read depth)) TopClosing text b

/-- A binding is read as a pattern and an expression. -/
theorem readsBinding (hp : Pattern.ReadsPattern text' p) (he : ReadsTop text e) :
    ReadsBinding (text' ++ " = " ++ text) ⟨p, e, [], .generated⟩ := by
  intro depth hdepth
  rw [String.append_assoc] at hdepth ⊢
  simp only [String.length_append] at hdepth
  have hvalue := ((he depth (by omega)).as fun e =>
    (⟨p, e, [], .generated⟩ : Binding ρ)).after " = "
  exact hp.readAny.andThen hvalue fun rest _ => stopsAt_append (by decide) _ rest

/-- Bindings and their body are read one after the other. -/
theorem reads_readBindings {ts : List τ} {f : τ → String} {g : τ → Binding ρ}
    (h : ∀ t ∈ ts, ReadsBinding (f t) (g t)) (hts : ts ≠ []) (he : ReadsTop text e)
    (recursion : Recursion) {depth : Nat}
    (hdepth : (joinWith " and " (ts.map f) ++ (" in " ++ text)).length < depth) :
    Reads (readBindings (read depth) recursion) TopClosing
      (joinWith " and " (ts.map f) ++ (" in " ++ text)) (made (.letIn recursion (ts.map g) e)) := by
  simp only [String.length_append] at hdepth
  have hread : ∀ t ∈ ts, (f t).length ≤ (joinWith " and " (ts.map f)).length →
      Reads (readBinding (read depth)) TopClosing (f t) (g t) :=
    fun t ht hle => h t ht depth (by omega)
  have hbindings := Reads.sepBy hread hts (by decide) (.lead (s := " and ") (by decide))
  have hbody := ((he depth (by omega)).as
    fun body => made (.letIn recursion (ts.map g) body)).after " in "
  refine hbindings.andThen hbody fun rest _ => ⟨stopsAt_append (by decide) _ rest, ?_⟩
  rw [String.toList_append, List.append_assoc]
  exact after_of_expect (expect_of_clash (by decide) _)

/-- What stands after `let` is not read as a binding if it begins with a keyword. -/
theorem readBindings_of_keyword {w : String} (hw : w ∈ keywords) (hcs : Ends isNameChar cs)
    (inner : Readers ρ) (recursion : Recursion) :
    readBindings inner recursion (w.toList ++ cs) = none :=
  andThen_of_none (sepBy_of_none (andThen_of_none (readAny_of_keyword hw hcs) _) _) _

/-- An expression that begins with `let` is read by what stands after it. -/
theorem readsTop_let (h : ∀ depth, text.length < depth →
    Reads (readLet (read depth)) TopClosing text e) : ReadsTop ("let " ++ text) e := by
  have htext : "let " ++ text = "let" ++ (" " ++ text) := by rw [← String.append_assoc]; rfl
  rw [htext]
  refine readsTop_of_keyword (by decide) (fun _ => ?_) fun depth hdepth => ?_
  · rw [String.toList_append]
    rfl
  · rw [String.length_append] at hdepth
    rw [← htext]
    exact ((h depth (by omega)).after "let ").first

/-- Bindings are read up to `in`, and then the body. Before `and` and `in` an expression ends, so
none of them reaches into the next. -/
theorem readsTop_letIn {ts : List τ} {f : τ → String} {g : τ → Binding ρ}
    (h : ∀ t ∈ ts, ReadsBinding (f t) (g t)) (hts : ts ≠ []) (he : ReadsTop text e)
    (recursion : Recursion) :
    ReadsTop ("let " ++ recursion.text ++ joinWith " and " (ts.map f) ++ " in " ++ text)
      (made (.letIn recursion (ts.map g) e)) := by
  have htext : "let " ++ recursion.text ++ joinWith " and " (ts.map f) ++ " in " ++ text =
      "let " ++ (recursion.text ++ (joinWith " and " (ts.map f) ++ (" in " ++ text))) := by
    simp only [String.append_assoc]
  rw [htext]
  refine readsTop_let fun depth hdepth => ?_
  rw [String.length_append] at hdepth
  have hread := reads_readBindings h hts he recursion
    (Nat.lt_of_le_of_lt (Nat.le_add_left _ _) hdepth)
  cases recursion with
  | nonrecursive =>
      rw [Recursion.text, String.empty_append]
      exact hread.first
  | recursive =>
      refine ((hread.after "rec ").first).later fun rest _ => ?_
      have hopen : ("rec " ++ (joinWith " and " (ts.map f) ++ (" in " ++ text))).toList ++ rest =
          "rec".toList ++ (' ' ::
            ((joinWith " and " (ts.map f) ++ (" in " ++ text)).toList ++ rest)) := by
        simp
      rw [hopen]
      refine readBindings_of_keyword (by decide) ?_ _ _
      rfl

/-- An opening is read as the name of a module and a body. -/
theorem readsTop_openIn {name : QualName} (hname : name.isModule) (he : ReadsTop text e)
    (override : Bool) :
    ReadsTop ("let open" ++ (if override then "!" else "") ++ " " ++ name.text ++ " in " ++ text)
      (made (.openIn ⟨.generated name, override, [], .generated⟩ e)) := by
  have hread : ∀ depth, text.length < depth → Reads (readOpen (read depth) override) TopClosing
      (name.text ++ (" in " ++ text))
      (made (.openIn ⟨.generated name, override, [], .generated⟩ e)) := by
    intro depth hdepth
    have hbody := ((he depth hdepth).as fun body =>
      made (.openIn ⟨.generated name, override, [], .generated⟩ body)).after " in "
    exact (reads_modulePath hname).andThen hbody fun rest _ => by
      rw [String.toList_append]
      rfl
  -- No binding begins with `open`, and `rec` differs from it at its first letter.
  have hbinding : ∀ (inner : Readers ρ) (recursion : Recursion) (cs : List Char),
    Ends isNameChar cs →
      readBindings inner recursion ("open".toList ++ cs) = none := fun inner recursion cs hcs =>
    readBindings_of_keyword (by decide) hcs inner recursion
  cases override with
  | true =>
      have htext : "let open" ++ (if true then "!" else "") ++ " " ++ name.text ++ " in " ++ text =
          "let " ++ ("open! " ++ (name.text ++ (" in " ++ text))) := by
        simp only [if_true, ← String.append_assoc]
        rfl
      rw [htext]
      refine readsTop_let fun depth hdepth => ?_
      have hopen : "open! ".length = 6 := rfl
      have hin : " in ".length = 4 := rfl
      simp only [String.length_append] at hdepth
      refine (((hread depth (by omega)).after "open! ").first.later_of_clash (by decide)).later
        fun rest _ => ?_
      rw [String.toList_append, List.append_assoc]
      exact hbinding _ _ ('!' :: ' ' :: _) rfl
  | false =>
      have htext : "let open" ++ (if false then "!" else "") ++ " " ++ name.text ++ " in " ++ text =
          "let " ++ ("open " ++ (name.text ++ (" in " ++ text))) := by
        simp only [Bool.false_eq_true, if_false, String.append_empty, ← String.append_assoc]
        rfl
      rw [htext]
      refine readsTop_let fun depth hdepth => ?_
      have hopen : "open ".length = 5 := rfl
      have hin : " in ".length = 4 := rfl
      simp only [String.length_append] at hdepth
      refine ((((hread depth (by omega)).after "open ").first.later_of_clash
        (by decide)).later_of_clash (by decide)).later fun rest _ => ?_
      rw [String.toList_append, List.append_assoc]
      exact hbinding _ _ (' ' :: _) rfl

/-! ## functions -/

/-- A parameter without a label does not look like one that has a label. -/
theorem unlabelled_param {text : String} {p : Pattern ρ} (hp : Pattern.ReadsAtom text p)
    (rest : List Char) (hrest : Ends isAtomPart rest) : Unlabelled (text.toList ++ rest) := by
  have hread := hp text.length (Nat.le_refl _) rest hrest
  exact unlabelled_of_read (by rw [hread]; exact nofun) fun _ hcs =>
    Pattern.readAtom_of_vacant hcs _

/-- A parameter without a default is read as an atom. -/
theorem reads_readParam {text : String} (hp : Pattern.ReadsAtom text p) (inner : Readers ρ) :
    Reads (readParam inner) (Ends isAtomPart) text (p, none) :=
  (hp.readAnyAtom.as fun p => (p, none)).first

/-- A parameter and its default are no pattern. -/
theorem readAnyAtom_of_default (hp : Pattern.ReadsPattern text p) (cs : List Char) :
    Pattern.readAnyAtom (ρ := ρ) ("(".toList ++ (text.toList ++ (" = ".toList ++ cs))) = none := by
  have hclosing : Pattern.Closing (" = ".toList ++ cs) := .lead (by decide) cs
  have hword : ∀ w : String, clash w.toList " = ".toList → expect w (" = ".toList ++ cs) = none :=
    fun w hw => expect_of_clash hw cs
  have hgroup : ∀ inner : Reader (Pattern ρ),
    Pattern.readGroup inner p (" = ".toList ++ cs) = none := by
    intro inner
    rw [Pattern.readGroup, firstOf_cons_of_none (after_of_expect (hword ")" (by decide))),
      firstOf_cons_of_none (after_of_expect (hword ", " (by decide))),
      firstOf_cons_of_none (after_of_expect (hword " | " (by decide))),
      firstOf_cons_of_none (after_of_expect (hword " as " (by decide))),
      firstOf_cons_of_none (after_of_expect (hword " : " (by decide))), firstOf_nil]
  -- The text of a pattern does not begin with the parenthesis that would make it a constructor.
  have hunit : expect "()" ("(".toList ++ (text.toList ++ (" = ".toList ++ cs))) = none := by
    have hsplit : expect "()" ("(".toList ++ (text.toList ++ (" = ".toList ++ cs))) =
        expect ")" (text.toList ++ (" = ".toList ++ cs)) := by
      rw [show "()" = "(" ++ ")" from rfl, expect_append_word, expect_append, Option.bind_some]
    rw [hsplit]
    cases hds : text.toList ++ (" = ".toList ++ cs) with
    | nil => rfl
    | cons c ds =>
        have hne : ')' ≠ c := by
          rintro rfl
          have hread := hp (text.length + 1) (Nat.lt_succ_self _) _ hclosing
          rw [hds, Pattern.read_paren] at hread
          exact absurd hread nofun
        exact expect_of_ne (bne_iff_ne.2 hne)
  have hopen : ∀ w : String, clash w.toList "(".toList →
      expect w ("(".toList ++ (text.toList ++ (" = ".toList ++ cs))) = none :=
    fun w hw => expect_of_clash hw _
  have hname : readName ("(".toList ++ (text.toList ++ (" = ".toList ++ cs))) = none :=
    readName_of_ends rfl
  have hconstructor : readConstructorName ("(".toList ++ (text.toList ++ (" = ".toList ++ cs))) =
      none := by
    refine readConstructorName_of_readName hname (List.forall_mem_cons.2 ⟨hunit, fun w hw => ?_⟩)
    have hclash : ∀ w ∈ ["[]", "true", "false"], clash w.toList "(".toList := by decide
    exact hopen w (hclash w hw)
  have hnamed : Pattern.readNamed (ρ := ρ) ("(".toList ++ (text.toList ++ (" = ".toList ++ cs))) =
      none := by
    rw [Pattern.readNamed, firstOf_cons_of_none (readAs_of_none (readLower_of_none hname) _),
      firstOf_cons_of_none (readAs_of_none hconstructor _),
      firstOf_cons_of_none (after_of_expect (hopen "_" (by decide))), firstOf_nil]
  have hconstant : readConstant ("(".toList ++ (text.toList ++ (" = ".toList ++ cs))) = none :=
    readConstant_of_sign (c := '(') rfl (by decide) _
  have hparens : ∀ depth, text.length < depth →
      after "(" (andThen (Pattern.read (ρ := ρ) depth) (Pattern.readGroup (Pattern.read depth)))
        ("(".toList ++ (text.toList ++ (" = ".toList ++ cs))) = none := by
    intro depth hdepth
    rw [after_append, andThen, hp depth hdepth _ hclosing, Option.bind_eq_bind, Option.bind_some,
      hgroup]
  have hlength : text.length < ("(".toList ++ (text.toList ++ (" = ".toList ++ cs))).length := by
    simp only [List.length_append, String.length_toList]
    have hparen : "(".length = 1 := rfl
    omega
  rw [Pattern.readAnyAtom, Pattern.readAtom, firstOf_cons_of_none (hparens _ hlength),
    firstOf_cons_of_none (after_of_expect (hopen "\x7b " (by decide))),
    firstOf_cons_of_none (after_of_expect (hopen "`" (by decide))), firstOf_cons_of_none hnamed,
    firstOf_cons_of_none (readAs_of_none hconstant _), firstOf_nil]

/-- A parameter with its default is read in parentheses. -/
theorem reads_readParam_default (hp : Pattern.ReadsPattern text' p) (he : ReadsTop text e)
    {depth : Nat} (hdepth : text.length < depth) :
    Reads (readParam (read depth)) (Ends isAtomPart) ("(" ++ text' ++ " = " ++ text ++ ")")
      (p, some e) := by
  have htext : "(" ++ text' ++ " = " ++ text ++ ")" = "(" ++
    (text' ++ (" = " ++ (text ++ ")"))) := by
    simp only [String.append_assoc]
  have hdefault := ((he depth hdepth).as fun e => (p, some e)).before (.lead (s := ")") (by decide))
  have hread : Reads (andThen Pattern.readAny fun p =>
      after " = " (before ")" (readAs (fun e => (p, some e)) (read depth).top))) (fun _ => True)
      (text' ++ (" = " ++ (text ++ ")"))) (p, some e) :=
    hp.readAny.andThen (hdefault.after " = ") fun rest _ => stopsAt_append (by decide) _ rest
  rw [htext]
  refine ((hread.after "(").first.weaken fun _ _ => trivial).later fun rest _ =>
    readAs_of_none ?_ _
  have hopen : ("(" ++ (text' ++ (" = " ++ (text ++ ")")))).toList ++ rest =
      "(".toList ++ (text'.toList ++ (" = ".toList ++ (text.toList ++ (")".toList ++ rest)))) := by
    simp
  rw [hopen]
  exact readAnyAtom_of_default hp _

/-- A function is read as a parameter and a body. -/
theorem readsTop_lambda {label : ArgLabel} (hlabel : label.isNamed) {text' : String}
    {param : Pattern ρ × Option (Expr ρ)}
    (hparam : ∀ depth, text'.length ≤ depth →
      Reads (readParam (read depth)) (Ends isAtomPart) text' param)
    (hstart : ∀ rest, Ends isAtomPart rest → Unlabelled (text'.toList ++ rest))
    (he : ReadsTop text e) :
    ReadsTop ("fun " ++ label.argText ++ text' ++ " -> " ++ text)
      (made (.lambda label param.2 param.1 e)) := by
  have htext : "fun " ++ label.argText ++ text' ++ " -> " ++ text =
      "fun" ++ (" " ++ (label.argText ++ (text' ++ (" -> " ++ text)))) := by
    simp only [← String.append_assoc]
    rfl
  rw [htext]
  refine readsTop_of_keyword (by decide) (fun _ => ?_) fun depth hdepth => ?_
  · rw [String.toList_append]
    rfl
  · have harrow : " -> ".length = 4 := rfl
    simp only [String.length_append] at hdepth
    have hbody := ((he depth (by omega)).as
      fun body => made (.lambda label param.2 param.1 body)).after " -> "
    have hrest : Reads (andThen (readParam (read depth)) fun param =>
          after " -> " (readAs (fun body => made (.lambda label param.2 param.1 body))
            (read depth).top))
        TopClosing (text' ++ (" -> " ++ text)) (made (.lambda label param.2 param.1 e)) :=
      (hparam depth (by omega)).andThen hbody fun rest _ => by
        rw [String.toList_append]
        rfl
    have hlambda : Reads (readLambda (read depth)) TopClosing
        (label.argText ++ (text' ++ (" -> " ++ text)))
          (made (.lambda label param.2 param.1 e)) := by
      intro rest hrest'
      have hends : Ends isAtomPart ((" -> " ++ text).toList ++ rest) := by
        rw [String.toList_append]
        rfl
      have hunlabelled : Unlabelled ((text' ++ (" -> " ++ text)).toList ++ rest) := by
        rw [String.toList_append, List.append_assoc]
        exact hstart _ hends
      rw [String.toList_append, List.append_assoc, readLambda, andThen,
        reads_readLabel hlabel _ hunlabelled, Option.bind_eq_bind, Option.bind_some]
      exact hrest rest hrest'
    have hword : "fun" ++ (" " ++ (label.argText ++ (text' ++ (" -> " ++ text)))) =
        "fun " ++ (label.argText ++ (text' ++ (" -> " ++ text))) := by
      rw [← String.append_assoc]
      rfl
    rw [hword]
    exact (hlambda.after "fun ").first.later_of_clash (by decide)

/-! ## cases -/

/-- The text of a case is read as `c` where `stops` says what follows. -/
def ReadsCase (stops : List Char → Prop) (text : String) (c : Case ρ) : Prop :=
  ∀ depth, text.length < depth → Reads (readCase (read depth)) stops text c

section

variable {stops : List Char → Prop}

/-- A case without a guard is read as a pattern and a body. -/
theorem readsCase_plain (hp : Pattern.ReadsPattern text' p)
    (he : ∀ depth, text.length < depth → Reads (read depth).top stops text e) :
    ReadsCase stops (text' ++ " -> " ++ text) ⟨p, none, e⟩ := by
  intro depth hdepth
  rw [String.append_assoc] at hdepth ⊢
  simp only [String.length_append] at hdepth
  have hbody := ((he depth (by omega)).as fun body => (⟨p, none, body⟩ : Case ρ)).after " -> "
  have hguard : Reads (andThen (readGuard (read depth)) fun guard =>
      after " -> " (readAs (fun body => (⟨p, guard, body⟩ : Case ρ)) (read depth).top)) stops
      (" -> " ++ text) ⟨p, none, e⟩ := by
    intro rest hrest
    have hnone : readGuard (ρ := ρ) (read depth) ((" -> " ++ text).toList ++ rest) =
        some (none, (" -> " ++ text).toList ++ rest) := by
      rw [String.toList_append, List.append_assoc, readGuard,
        firstOf_cons_of_none (after_of_expect (expect_of_clash (by decide) _)), firstOf_singleton,
        readNothing]
    rw [andThen, hnone, Option.bind_eq_bind, Option.bind_some]
    exact hbody rest hrest
  exact hp.readAny.andThen hguard fun rest _ => stopsAt_append (by decide) _ rest

/-- A case with a guard is read as three parts. -/
theorem readsCase_guarded (hp : Pattern.ReadsPattern text' p) {guardText : String} {guard : Expr ρ}
    (hguard : ReadsTop guardText guard)
    (he : ∀ depth, text.length < depth → Reads (read depth).top stops text e) :
    ReadsCase stops (text' ++ " when " ++ guardText ++ " -> " ++ text) ⟨p, some guard, e⟩ := by
  intro depth hdepth
  have htext : text' ++ " when " ++ guardText ++ " -> " ++ text =
      text' ++ ((" when " ++ guardText) ++ (" -> " ++ text)) := by
    simp only [String.append_assoc]
  rw [htext] at hdepth ⊢
  simp only [String.length_append] at hdepth
  have hbody := ((he depth (by omega)).as fun body => (⟨p, some guard, body⟩ : Case ρ)).after " -> "
  have hwhen : Reads (readGuard (read depth)) TopClosing (" when " ++ guardText) (some guard) :=
    (((hguard depth (by omega)).as some).after " when ").first
  have hrest : Reads (andThen (readGuard (read depth)) fun guard =>
      after " -> " (readAs (fun body => (⟨p, guard, body⟩ : Case ρ)) (read depth).top)) stops
      ((" when " ++ guardText) ++ (" -> " ++ text)) ⟨p, some guard, e⟩ :=
    hwhen.andThen hbody fun rest _ => stopsAt_append (by decide) _ rest
  refine hp.readAny.andThen hrest fun rest _ => ?_
  rw [String.append_assoc]
  exact stopsAt_append (by decide) _ rest

end

/-- The text of cases, each with a bar before it, is read as `cases`. -/
structure ReadsCases (text : String) (cases : List (Case ρ)) : Prop where
  bar : ∃ s, text = " | " ++ s
  reads : ∀ depth, text.length ≤ depth → Reads (readCases (read depth)) TopClosing text cases

/-- The last case may reach as far as it can; the ones before it end at the bar. -/
theorem ReadsCase.single {c : Case ρ} (h : ReadsCase TopClosing text c) :
    ReadsCases (" | " ++ text) [c] where
  bar := ⟨text, rfl⟩
  reads depth hdepth := by
    have hbar : " | ".length = 3 := rfl
    rw [String.length_append] at hdepth
    have hend : Reads (several (after " | " (readCase (read (ρ := ρ) depth)))) TopClosing "" [] :=
      reads_several_nil fun rest hrest => after_of_expect (hrest.expect_eq_none (by decide))
    have hread := ((h depth (by omega)).after " | ").several_cons (by simp) hend
      fun _ hrest => hrest
    rwa [String.append_empty] at hread

/-- A case that is not the last one ends at the bar of the next. -/
theorem ReadsCase.cons {c : Case ρ} {cases : List (Case ρ)} (h : ReadsCase BodyClosing text c)
    (hcases : ReadsCases text' cases) : ReadsCases (" | " ++ text ++ text') (c :: cases) where
  bar := ⟨text ++ text', String.append_assoc⟩
  reads depth hdepth := by
    have hbar : " | ".length = 3 := rfl
    rw [String.length_append, String.length_append] at hdepth
    have hmore := hcases.reads depth (by omega)
    refine ((h depth (by omega)).after " | ").several_cons (by simp) hmore fun rest _ => ?_
    obtain ⟨s, rfl⟩ := hcases.bar
    exact stopsAt_append (by decide) s rest

/-- A function by cases is read case by case. -/
theorem readsTop_function {cases : List (Case ρ)} (h : ReadsCases text cases) :
    ReadsTop ("function" ++ text) (made (.function cases)) := by
  refine readsTop_of_keyword (by decide) (fun rest => ?_) fun depth hdepth => ?_
  · obtain ⟨s, rfl⟩ := h.bar
    rw [String.toList_append]
    rfl
  · have hcases := ((h.reads depth (by omega)).as fun cases =>
        made (.function cases)).after "function"
    exact (hcases.first.later_of_clash (by decide)).later_of_clash (by decide)

/-- A match is read as its scrutinee and its cases. -/
theorem readsTop_matchWith (he : ReadsTop text e) {cases : List (Case ρ)}
    (h : ReadsCases text' cases) :
    ReadsTop ("match " ++ text ++ " with" ++ text') (made (.matchWith e cases)) := by
  have htext : "match " ++ text ++ " with" ++ text' = "match" ++
    (" " ++ (text ++ (" with" ++ text'))) := by
    simp only [← String.append_assoc]
    rfl
  rw [htext]
  refine readsTop_of_keyword (by decide) (fun rest => ?_) fun depth hdepth => ?_
  · rw [String.toList_append]
    rfl
  · simp only [String.length_append] at hdepth
    have hcases := ((h.reads depth (by omega)).as fun cases =>
      made (.matchWith e cases)).after " with"
    have hmatch : Reads (readMatch (read depth)) TopClosing (text ++ (" with" ++ text'))
        (made (.matchWith e cases)) := by
      refine (he depth (by omega)).andThen hcases fun rest _ => ?_
      obtain ⟨s, rfl⟩ := h.bar
      have hwith : " with" ++ (" | " ++ s) = " with " ++ ("| " ++ s) := by
        simp only [← String.append_assoc]
        rfl
      rw [hwith]
      exact stopsAt_append (by decide) _ rest
    have hword : "match" ++ (" " ++ (text ++ (" with" ++ text'))) =
        "match " ++ (text ++ (" with" ++ text')) := by
      rw [← String.append_assoc]
      rfl
    rw [hword]
    exact (((hmatch.after "match ").first.later_of_clash (by decide)).later_of_clash
      (by decide)).later_of_clash (by decide)

/-! ## conditionals -/

/-- A conditional is read if what stands after its condition is. -/
theorem readsTop_if (he : ReadsTop text e) {t : Expr ρ} {tail : String}
    (h : ∀ depth, tail.length < depth →
      Reads (andThen (read depth).element fun onTrue =>
        firstOf
          [after " else "
              (readAs (fun onFalse => made (.ifThenElse e onTrue (some onFalse)))
                (read depth).element),
            readNothing (made (.ifThenElse e onTrue none))]) TopClosing tail t) :
    ReadsTop ("if " ++ text ++ " then " ++ tail) t := by
  have htext : "if " ++ text ++ " then " ++ tail = "if" ++
    (" " ++ (text ++ (" then " ++ tail))) := by
    simp only [← String.append_assoc]
    rfl
  rw [htext]
  refine readsTop_of_keyword (by decide) (fun rest => ?_) fun depth hdepth => ?_
  · rw [String.toList_append]
    rfl
  · have hthen : " then ".length = 6 := rfl
    simp only [String.length_append] at hdepth
    have hif : Reads (readIf (read depth)) TopClosing (text ++ (" then " ++ tail)) t :=
      (he depth (by omega)).andThen ((h depth (by omega)).after " then ") fun rest _ =>
        stopsAt_append (by decide) _ rest
    have hword : "if" ++ (" " ++ (text ++ (" then " ++ tail))) = "if " ++
      (text ++ (" then " ++ tail)) := by
      rw [← String.append_assoc]
      rfl
    rw [hword]
    exact ((((hif.after "if ").first.later_of_clash (by decide)).later_of_clash
      (by decide)).later_of_clash (by decide)).later_of_clash (by decide)

/-- A conditional with one branch is read up to the end of the branch. -/
theorem readsTop_ifThen (he : ReadsTop text e) (h : ReadsElement text' e') :
    ReadsTop ("if " ++ text ++ " then " ++ text') (made (.ifThenElse e e' none)) := by
  refine readsTop_if he fun depth hdepth => ?_
  have hnone : Reads (firstOf
      [after " else "
          (readAs (fun onFalse => made (.ifThenElse e e' (some onFalse))) (read depth).element),
        readNothing (made (.ifThenElse e e' none))]) TopClosing "" (made (.ifThenElse e e' none)) :=
    fun rest hrest => firstOf_cons_of_none (after_of_expect (hrest.expect_eq_none (by decide)))
  have hread : Reads (andThen (read depth).element fun onTrue =>
      firstOf
        [after " else "
            (readAs (fun onFalse => made (.ifThenElse e onTrue (some onFalse)))
              (read depth).element),
          readNothing (made (.ifThenElse e onTrue none))]) TopClosing (text' ++ "")
      (made (.ifThenElse e e' none)) :=
    (h depth hdepth).andThen hnone fun rest hrest => hrest.body.element
  rwa [String.append_empty] at hread

/-- A conditional with two branches goes on with `else`. -/
theorem readsTop_ifThenElse (he : ReadsTop text e) (h : ReadsElement text' e') {elseText : String}
    {onFalse : Expr ρ} (hfalse : ReadsElement elseText onFalse) :
    ReadsTop ("if " ++ text ++ " then " ++ text' ++ " else " ++ elseText)
      (made (.ifThenElse e e' (some onFalse))) := by
  have htext : "if " ++ text ++ " then " ++ text' ++ " else " ++ elseText =
      "if " ++ text ++ " then " ++ (text' ++ (" else " ++ elseText)) := by
    simp only [String.append_assoc]
  rw [htext]
  refine readsTop_if he fun depth hdepth => ?_
  simp only [String.length_append] at hdepth
  have helse := ((hfalse depth (by omega)).as
    fun onFalse => made (.ifThenElse e e' (some onFalse))).after " else "
  exact (h depth (by omega)).andThen (helse.first.weaken fun _ hrest => hrest.body.element)
    fun rest _ => stopsAt_append (by decide) _ rest

end Expr

end DeriveKit
