import DeriveKit.Proofs.ReadModule

/-!
# DeriveKit.Proofs.ModuleForms

What is read off the text of each form of module type and module expression, given that the texts of
its parts are read. One lemma for each form says so: `readsType_ident`, `readsType_functor` and
`readsType_signature` for module types; `readsHead_ident`, `readsHead_constraint` and
`readsHead_structure` for module expressions.

An application is read as its arguments after the head. If the head is a functor, which has no
parentheses, the arguments go to the body of it: `ReadsGrouped` says of a text that it is read in
this way, and `ReadsGrouped.module` that it is read.
-/

namespace DeriveKit

variable {π ρ τ : Type} {depth : Nat}

/-! ## names -/

/-- The name of a module is read, or the wildcard in its place. -/
theorem reads_readModuleName {name : Located (Option String)} (h : isModuleName name) :
    Reads readModuleName (Ends isNameChar) (moduleNameText name) name.erase := by
  intro rest hrest
  match name with
  | ⟨some s, _⟩ => exact by rw [readModuleName, moduleNameText, Option.getD_some,
      reads_readName h rest hrest]; rfl
  | ⟨none, _⟩ =>
      rw [readModuleName, moduleNameText, Option.getD_none, readName_of_reserved (by decide) hrest,
        expect_append]
      rfl

/-- A parameter with a name is not taken for a unit. -/
theorem expect_paren_moduleName {name : Located (Option String)} (h : isModuleName name)
    (cs : List Char) : expect ")" ((moduleNameText name).toList ++ cs) = none := by
  match name with
  | ⟨some s, _⟩ =>
      obtain ⟨c, w, hs, hstart⟩ := exists_isNameStart_of_isName (s := s) h
      have hne : ')' ≠ c := by
        rintro rfl
        exact absurd hstart (by decide)
      simp [moduleNameText, hs, expect, dropLead, hne]
  | ⟨none, _⟩ => exact expect_of_clash (l := "_") (by decide) cs

/-- What may stand after a module type or a module expression, apart from the end of the text. -/
def moduleClosers : List String := [")", " :", " end", " module"]

/-- What may stand after a module type or a module expression. -/
abbrev ModuleClosing (cs : List Char) : Prop := StopsAt moduleClosers cs

/-- What closes a module is no part of a name. -/
theorem ModuleClosing.ends {cs : List Char} (h : ModuleClosing cs) : Ends isPathChar cs := by
  cases h with
  | nil => trivial
  | lead h cs =>
      simp only [moduleClosers, List.mem_cons, List.not_mem_nil, or_false] at h
      obtain rfl | rfl | rfl | rfl := h <;> rfl

/-- The items of a structure or a signature are read one by one, up to the closing word. -/
theorem many_items {ι : Type} {read : Reader ι} {f : τ → String} {g : τ → ι} {ds : List τ}
    (h : ∀ d ∈ ds, Reads read ModuleClosing (f d) (g d)) (rest : List Char) :
    many (after " module " read)
        ((leadEach " " (ds.map fun d => "module " ++ f d)).toList ++ (" end".toList ++ rest)) =
      (ds.map g, " end".toList ++ rest) := by
  have hlead := leadEach_map_append " " "module " (ds.map f)
  rw [List.map_map] at hlead
  exact hlead ▸ many_leadEach h (by decide)
    (fun cs => .lead (s := " module") (by decide) (' ' :: cs))
    (.lead (by decide) rest) (after_of_expect (expect_of_clash (by decide) rest))

/-- Names end where an item or the end of a structure follows. -/
theorem ends_items (texts : List String) (rest : List Char) :
    Ends isPathChar ((leadEach " " texts).toList ++ (" end".toList ++ rest)) := by
  cases texts with
  | nil => rfl
  | cons s texts =>
      rw [leadEach, String.append_assoc, String.toList_append, List.append_assoc]
      rfl

/-- An item is no longer than the structure; this bounds the depth that its reader needs. -/
theorem length_item_le {f : τ → String} {ds : List τ} {d : τ} (h : d ∈ ds) :
    (f d).length ≤ (leadEach " " (ds.map fun d => "module " ++ f d)).length := by
  have hle := length_le_length_leadEach " "
    (List.mem_map_of_mem (f := fun d => "module " ++ f d) h)
  rw [String.length_append] at hle
  omega

/-! ## module types -/

namespace ModuleType

/-- The text of a module type is read as `t`. -/
def ReadsType (text : String) (t : ModuleType ρ) : Prop :=
  ∀ depth, text.length < depth → Reads (read depth) ModuleClosing text t

/-- The text of the parameter of a functor is read as `p`. -/
def ReadsParam (text : String) (p : FunctorParam ρ) : Prop :=
  ∀ depth, text.length ≤ depth → Reads (readParam (read depth)) (fun _ => True) text p

variable {text : String} {t : ModuleType ρ} {name : Located (Option String)}

/-- A declaration is read as a name and a module type. -/
theorem reads_typed (hname : isModuleName name) (h : ReadsType text t)
    (hdepth : text.length < depth) :
    Reads (readTyped (read depth)) ModuleClosing (moduleNameText name ++ " : " ++ text)
      (name.erase, t) := by
  intro rest hrest
  have hends : Ends isNameChar (" : ".toList ++ (text.toList ++ rest)) := rfl
  rw [String.toList_append, String.toList_append, List.append_assoc, List.append_assoc, readTyped,
    reads_readModuleName hname _ hends]
  simp only [expect_append, h depth hdepth rest hrest, Option.bind_eq_bind, Option.bind_some]

/-- The parameter of a generative functor is read as a unit. -/
theorem readsParam_unit : ReadsParam "()" (.unit : FunctorParam ρ) := by
  intro depth _ rest _
  have hopen : "()".toList ++ rest = "(".toList ++ (")".toList ++ rest) := rfl
  rw [hopen, readParam, expect_append]
  simp only [expect_append, Option.bind_eq_bind, Option.bind_some]

/-- A parameter that is no unit is read as a name and a module type. -/
theorem readsParam_named (hname : isModuleName name) (h : ReadsType text t) :
    ReadsParam ("(" ++ moduleNameText name ++ " : " ++ text ++ ")") (.named name.erase t) := by
  intro depth hdepth rest _
  have hopen : "(".length = 1 := rfl
  simp only [String.length_append] at hdepth
  have hlength : text.length < depth := by omega
  have htyped := reads_typed hname h hlength (")".toList ++ rest) (.lead (by decide) rest)
  have htext : ("(" ++ moduleNameText name ++ " : " ++ text ++ ")").toList ++ rest =
      "(".toList ++ ((moduleNameText name ++ " : " ++ text).toList ++ (")".toList ++ rest)) := by
    simp
  have hnot : expect ")" ((moduleNameText name ++ " : " ++ text).toList ++ (")".toList ++ rest)) =
      none := by
    rw [String.append_assoc, String.toList_append, List.append_assoc]
    exact expect_paren_moduleName hname _
  rw [htext, readParam, expect_append]
  simp only [hnot, htyped, expect_append, Option.bind_eq_bind, Option.bind_some]

/-- A name is read as a module type. -/
theorem readsType_ident {n : QualName} (h : n.isNamed) :
    ReadsType n.text (made (.ident (.generated n)) : ModuleType ρ) := by
  intro depth hdepth rest hrest
  obtain ⟨depth, rfl⟩ : ∃ n, depth = n + 1 := ⟨depth - 1, by omega⟩
  rw [read, readStep, reads_readQualName h rest hrest.ends]

/-- A functor type is read as its parameter and its result. -/
theorem readsType_functor {P B : String} {p : FunctorParam ρ} {b : ModuleType ρ}
    (hp : ReadsParam P p) (hb : ReadsType B b) :
    ReadsType ("functor " ++ P ++ " -> " ++ B) (made (.functor p b)) := by
  intro depth hdepth rest hrest
  obtain ⟨depth, rfl⟩ : ∃ n, depth = n + 1 := ⟨depth - 1, by omega⟩
  have harrow : " -> ".length = 4 := rfl
  simp only [String.length_append] at hdepth
  have htext : ("functor " ++ P ++ " -> " ++ B).toList ++ rest =
      "functor ".toList ++ (P.toList ++ (" -> ".toList ++ (B.toList ++ rest))) := by
    simp
  have hword : readQualName
      ("functor ".toList ++ (P.toList ++ (" -> ".toList ++ (B.toList ++ rest)))) = none :=
    readQualName_of_reserved (w := "functor") (by decide) (' ' :: _) rfl
  have hsig : expect "sig"
      ("functor ".toList ++ (P.toList ++ (" -> ".toList ++ (B.toList ++ rest)))) = none :=
    expect_of_clash (by decide) _
  rw [htext, read, readStep, hword, hsig]
  simp only [expect_append, hp depth (by omega) _ trivial, hb depth (by omega) rest hrest,
    Option.bind_eq_bind, Option.bind_some]

section

variable {ds : List τ} {label : τ → Located (Option String)} {f : τ → String}
  {g : τ → ModuleType ρ}

/-- A signature is read item by item, up to `end`. -/
theorem readsType_signature (h : ∀ d ∈ ds, isModuleName (label d) ∧ ReadsType (f d) (g d)) :
    ReadsType ("sig" ++ leadEach " " (ds.map fun d =>
        "module " ++ (moduleNameText (label d) ++ " : " ++ f d)) ++ " end")
      (made (.signature (ds.map fun d => declared (label d).erase (g d)))) := by
  intro depth hdepth rest hrest
  obtain ⟨depth, rfl⟩ : ∃ n, depth = n + 1 := ⟨depth - 1, by omega⟩
  have hsig : "sig".length = 3 := rfl
  simp only [String.length_append] at hdepth
  have hdecl : ∀ d ∈ ds, Reads (readDecl (read depth)) ModuleClosing
      (moduleNameText (label d) ++ " : " ++ f d) (declared (label d).erase (g d)) := by
    intro d hd rest hrest
    have hle := length_item_le (f := fun d => moduleNameText (label d) ++ " : " ++ f d) hd
    simp only [String.length_append] at hle
    rw [readDecl, reads_typed (h d hd).1 (h d hd).2 (by omega) rest hrest]
    rfl
  have hdecls := many_items hdecl rest
  rw [String.toList_append, String.toList_append, List.append_assoc, List.append_assoc, read,
    readStep, readQualName_of_reserved (by decide) _ (ends_items _ _), expect_append]
  simp only [hdecls, expect_append, Option.bind_eq_bind, Option.bind_some]

end

end ModuleType

/-! ## module expressions -/

namespace ModuleExpr

/-- The text of a module expression that no argument takes apart is read as `m`. -/
def ReadsHead (text : String) (m : ModuleExpr ρ) : Prop :=
  ∀ depth, text.length ≤ depth →
    Reads (readHead (read depth) (ModuleType.read depth)) (Ends isPathChar) text m

/-- The text of a module expression is read as `m`. -/
def ReadsModule (text : String) (m : ModuleExpr ρ) : Prop :=
  ∀ depth, text.length < depth → Reads (read depth) ModuleClosing text m

/-- The texts that are read as `m`, by what they begin with: a head and its arguments, or functors
around such a text. -/
inductive ReadsGrouped : String → ModuleExpr ρ → Prop
  | core {text : String} {head : ModuleExpr ρ} {args : List (String × ModuleExpr ρ)}
      (hhead : ReadsHead text head) (hfunctor : head.isFunctor = false)
      (hargs : ∀ arg ∈ args, ReadsModule arg.1 arg.2) :
      ReadsGrouped (text ++ leadEach "(" (args.map fun arg => arg.1 ++ ")"))
        (head.applied (args.map (·.2)))
  | functor {text body : String} {param : FunctorParam ρ} {m : ModuleExpr ρ}
      (hparam : ModuleType.ReadsParam text param) (hbody : ReadsGrouped body m) :
      ReadsGrouped ("functor " ++ text ++ " -> " ++ body) (made (.functor param m))

variable {text : String} {m : ModuleExpr ρ} {name : Located (Option String)}

/-- An argument is read up to the closing parenthesis. -/
theorem reads_arg (h : ReadsModule text m) (hdepth : text.length < depth) :
    Reads (readArg (read depth)) (Ends isPathChar) (text ++ ")") m := by
  intro rest _
  rw [String.toList_append, List.append_assoc, readArg,
    h depth hdepth _ (.lead (s := ")") (by decide) rest)]
  simp only [expect_append, Option.bind_eq_bind, Option.bind_some]

/-- What is read with all the arguments after it is read as a module expression. -/
theorem ReadsGrouped.module (h : ReadsGrouped text m) : ReadsModule text m := by
  induction h with
  | @core text head args hhead hfunctor hargs =>
      intro depth hdepth rest hrest
      obtain ⟨depth, rfl⟩ : ∃ n, depth = n + 1 := ⟨depth - 1, by omega⟩
      rw [String.length_append] at hdepth
      have hlength : ∀ arg ∈ args, arg.1.length < depth := by
        intro arg harg
        have hle := length_le_length_leadEach "("
          (List.mem_map_of_mem (f := fun arg : String × ModuleExpr ρ => arg.1 ++ ")") harg)
        have hclose : ")".length = 1 := rfl
        rw [String.length_append] at hle
        omega
      have hopen : ∀ cs : List Char, Ends isPathChar ("(".toList ++ cs) := fun _ => rfl
      have hmany := many_leadEach (g := fun arg : String × ModuleExpr ρ => arg.2)
        (fun arg harg => reads_arg (hargs arg harg) (hlength arg harg)) (by decide) hopen hrest.ends
        (after_of_expect (hrest.expect_eq_none (by decide)))
      have hends :
          Ends isPathChar ((leadEach "(" (args.map fun arg => arg.1 ++ ")")).toList ++ rest) := by
        cases args with
        | nil => exact hrest.ends
        | cons arg args =>
            rw [List.map_cons, leadEach, String.append_assoc, String.toList_append,
              List.append_assoc]
            exact hopen _
      rw [String.toList_append, List.append_assoc, read, readStep, hhead depth (by omega) _ hends]
      simp only [hmany]
  | @functor text body param m hparam hbody ih =>
      intro depth hdepth rest hrest
      obtain ⟨depth, rfl⟩ : ∃ n, depth = n + 1 := ⟨depth - 1, by omega⟩
      have harrow : " -> ".length = 4 := rfl
      simp only [String.length_append] at hdepth
      have htext : ("functor " ++ text ++ " -> " ++ body).toList ++ rest =
          "functor ".toList ++ (text.toList ++ (" -> ".toList ++ (body.toList ++ rest))) := by
        simp
      have hhead : ∀ cs, readHead (read (ρ := ρ) depth) (ModuleType.read depth)
          ("functor ".toList ++ cs) = none := by
        intro cs
        have hword : readQualName ("functor ".toList ++ cs) = none :=
          readQualName_of_reserved (w := "functor") (by decide) (' ' :: cs) rfl
        have hopen : expect "(" ("functor ".toList ++ cs) = none := expect_of_clash (by decide) cs
        rw [readHead, hword, expect_of_clash (by decide)]
        simp only [hopen, Option.bind_eq_bind, Option.bind_none]
      rw [htext, read, readStep, hhead]
      simp only [expect_append, hparam depth (by omega) _ trivial, ih depth (by omega) rest hrest,
        Option.bind_eq_bind, Option.bind_some]

/-! ### applications -/

/-- Only the body of a functor draws an argument into itself (`ModuleExpr.group`). -/
theorem group_eq_apply {m : ModuleExpr ρ} (h : m.isFunctor = false) (arg : ModuleExpr ρ)
    (span : Span) (attributes : List (Attribute ρ)) :
    m.group arg span attributes = ⟨.apply m arg, span, attributes⟩ := by
  obtain ⟨shape, place, attrs⟩ := m
  cases shape with
  | functor => exact absurd h (by simp [isFunctor])
  | ident | «structure» | apply | constraint | extension => rfl

/-- Whether it is a functor does not depend on places. -/
theorem isFunctor_erase (E : Erasure π ρ) (m : ModuleExpr π) :
    (m.erase E).isFunctor = m.isFunctor := by
  obtain ⟨shape, place, attrs⟩ := m
  cases shape <;> rfl

/-- What is applied is no functor, however many arguments it has. -/
theorem isFunctor_applied (h : m.isFunctor = false) (args : List (ModuleExpr ρ)) :
    (m.applied args).isFunctor = false := by
  induction args generalizing m with
  | nil => exact h
  | cons arg args ih => exact ih rfl

/-- The last argument in a chain is the outermost one. -/
theorem applied_append (m : ModuleExpr ρ) (args : List (ModuleExpr ρ)) (arg : ModuleExpr ρ) :
    m.applied (args ++ [arg]) = made (.apply (m.applied args) arg) := by
  induction args generalizing m with
  | nil => rfl
  | cons a args ih => exact ih _

/-- The text of an application is read as the application with the argument in its place. -/
theorem ReadsGrouped.group (h : ReadsGrouped text m) {argText : String} {arg : ModuleExpr ρ}
    (harg : ReadsModule argText arg) :
    ReadsGrouped (text ++ "(" ++ argText ++ ")") (m.group arg .generated []) := by
  induction h with
  | @core text head args hhead hfunctor hargs =>
      have hall : ∀ a ∈ args ++ [(argText, arg)], ReadsModule a.1 a.2 := by
        intro a ha
        obtain ha | ha := List.mem_append.1 ha
        · exact hargs a ha
        · exact List.mem_singleton.1 ha ▸ harg
      have hcore := core hhead hfunctor hall
      rw [List.map_append, List.map_append, leadEach_append, List.map_singleton, List.map_singleton,
        applied_append, leadEach, leadEach, String.append_empty] at hcore
      rw [group_eq_apply (isFunctor_applied hfunctor _)]
      simpa only [String.append_assoc, made] using hcore
  | @functor text body param m hparam hbody ih =>
      have hinside : (made (.functor param m)).group arg .generated [] =
          made (.functor param (m.group arg .generated [])) := by
        simp only [made, ModuleExpr.group]
      rw [hinside]
      simpa only [String.append_assoc] using functor hparam ih

/-! ### heads -/

/-- What can be applied is read with no arguments yet (`ReadsGrouped`). -/
theorem ReadsHead.grouped (h : ReadsHead text m) (hfunctor : m.isFunctor = false) :
    ReadsGrouped text m := by
  have hargs : ∀ arg ∈ ([] : List (String × ModuleExpr ρ)), ReadsModule arg.1 arg.2 := by simp
  have hcore := ReadsGrouped.core h hfunctor hargs
  rwa [List.map_nil, leadEach, String.append_empty] at hcore

/-- A name can be applied. -/
theorem readsHead_ident {n : QualName} (h : n.isNamed) :
    ReadsHead n.text (made (.ident (.generated n)) : ModuleExpr ρ) := by
  intro depth _ rest hrest
  rw [readHead, reads_readQualName h rest hrest]

/-- A module in parentheses with its type can be applied. -/
theorem readsHead_constraint {typeText : String} {t : ModuleType ρ} (hm : ReadsModule text m)
    (ht : ModuleType.ReadsType typeText t) :
    ReadsHead ("(" ++ text ++ " : " ++ typeText ++ ")") (made (.constraint m t)) := by
  intro depth hdepth rest _
  have hopen : "(".length = 1 := rfl
  simp only [String.length_append] at hdepth
  have htext : ("(" ++ text ++ " : " ++ typeText ++ ")").toList ++ rest =
      "(".toList ++ (text.toList ++
        (" : ".toList ++ (typeText.toList ++ (")".toList ++ rest)))) := by
    simp
  have hword : ∀ cs, readQualName ("(".toList ++ cs) = none :=
    fun cs => readQualName_of_ends ('(' :: cs) rfl
  have hm := hm depth (by omega) (" : ".toList ++ (typeText.toList ++ (")".toList ++ rest)))
    (.lead (s := " :") (by decide) (' ' :: _))
  have ht := ht depth (by omega) (")".toList ++ rest) (.lead (by decide) rest)
  rw [htext, readHead, hword, expect_of_clash (by decide)]
  simp only [expect_append, hm, ht, Option.bind_eq_bind, Option.bind_some]

/-- A structure can be applied; it is read item by item. -/
theorem readsHead_structure {bs : List τ} {label : τ → Located (Option String)} {f : τ → String}
    {g : τ → ModuleExpr ρ} (h : ∀ b ∈ bs, isModuleName (label b) ∧ ReadsModule (f b) (g b)) :
    ReadsHead ("struct" ++ leadEach " " (bs.map fun b =>
        "module " ++ (moduleNameText (label b) ++ " = " ++ f b)) ++ " end")
      (made (.structure (bs.map fun b => bound (label b).erase (g b)))) := by
  intro depth hdepth rest _
  have hstruct : "struct".length = 6 := rfl
  simp only [String.length_append] at hdepth
  have hbinding : ∀ b ∈ bs, Reads (readBinding (read depth)) ModuleClosing
      (moduleNameText (label b) ++ " = " ++ f b) (bound (label b).erase (g b)) := by
    intro b hb rest hrest
    have hle := length_item_le (f := fun b => moduleNameText (label b) ++ " = " ++ f b) hb
    simp only [String.length_append] at hle
    have hends : Ends isNameChar (" = ".toList ++ ((f b).toList ++ rest)) := rfl
    rw [String.toList_append, String.toList_append, List.append_assoc, List.append_assoc,
      readBinding, reads_readModuleName (h b hb).1 _ hends]
    simp only [expect_append, (h b hb).2 depth (by omega) rest hrest, Option.bind_eq_bind,
      Option.bind_some]
  have hbindings := many_items hbinding rest
  rw [String.toList_append, String.toList_append, List.append_assoc, List.append_assoc, readHead,
    readQualName_of_reserved (by decide) _ (ends_items _ _), expect_append]
  simp only [hbindings, expect_append, Option.bind_eq_bind, Option.bind_some]

end ModuleExpr

end DeriveKit
