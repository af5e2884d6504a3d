import DeriveKit.Argument.Attribute
import DeriveKit.Text.Pieces

/-!
# DeriveKit.Proofs.AttributeLookup

The lookup of an attribute for a generator is not disturbed by the attributes of other generators.
What counts is how names begin, and the name of a generator has no dot, so the part of a name before
its first dot says whose attribute it is.

* `Attribute.find?_insert` — an attribute that neither decides about the spelling nor has the name
  that is looked for makes no difference;
* `Attribute.lookup_isolates_generators` — the result, and which attribute is found.
-/

namespace DeriveKit

/-! ## names with dots -/

/-- A text without a dot, such as the name of a generator. -/
def IsSegment (s : String) : Prop := '.' ∉ s.toList

instance (s : String) : Decidable (IsSegment s) := inferInstanceAs (Decidable ('.' ∉ s.toList))

/-- The common namespace is one segment. -/
theorem isSegment_deriving : IsSegment "deriving" := by decide

/-- A name that a generator can be told by: it has no dot and is not the mark. -/
structure IsGeneratorName (d : String) : Prop where
  isSegment : IsSegment d
  ne_mark : d ≠ "deriving"

/-- The part before the first dot is determined by the text. -/
theorem IsSegment.eq_of_append {s t r r' : String} (hs : IsSegment s) (ht : IsSegment t)
    (h : s ++ "." ++ r = t ++ "." ++ r') : s = t := by
  have hlists : s.toList ++ '.' :: r.toList = t.toList ++ '.' :: r'.toList := by
    simpa using congrArg String.toList h
  have hcut := congrArg (cutAt '.') hlists
  rw [cutAt_append_cons hs, cutAt_append_cons ht] at hcut
  exact String.toList_injective (congrArg Prod.fst hcut)

/-- A text with a dot in it is no segment (`IsSegment`). -/
theorem not_isSegment_append (s r : String) : ¬ IsSegment (s ++ "." ++ r) := by
  simp [IsSegment]

namespace Attribute

variable {π : Type}

/-! ## how names begin -/

/-- The name of the attribute begins with `front`. -/
def Begins (front : String) (a : Attribute π) : Prop := ∃ rest, a.name.value = front ++ rest

/-- The lookup asks for any attribute whose name begins in the given way (`Attribute.Begins`). -/
theorem anyBegins_iff {front : String} {attributes : List (Attribute π)} :
    anyBegins front attributes = true ↔ ∃ a ∈ attributes, a.Begins front := by
  have hbegins (a : Attribute π) :
      front.toList.isPrefixOf a.name.value.toList = true ↔ a.Begins front := by
    rw [List.isPrefixOf_iff_prefix]
    constructor
    · rintro ⟨rest, hrest⟩
      exact ⟨.ofList rest, String.toList_injective (by simp [hrest])⟩
    · rintro ⟨rest, hrest⟩
      exact ⟨rest.toList, by simp [hrest]⟩
  simp only [anyBegins, List.any_eq_true, hbegins]

/-- An attribute spelled with the name of a generator, with or without the mark. -/
def IsOf (generator : String) (a : Attribute π) : Prop :=
  a.Begins (generator ++ ".") ∨ a.Begins ("deriving." ++ generator ++ ".")

variable {d d' n : String} {a : Attribute π}

/-- A full name has the namespace as its first part, and the rest after the first dot. -/
theorem deriving_append (g rest : String) :
    "deriving." ++ g ++ "." ++ rest = "deriving" ++ "." ++ (g ++ "." ++ rest) := by
  apply String.toList_injective
  simp

/-- An attribute is spelled with the name of one generator only. -/
theorem IsOf.not_isOf (h : a.IsOf d') (hd' : IsGeneratorName d') (hd : IsGeneratorName d)
    (hne : d' ≠ d) : ¬ a.IsOf d := by
  -- Equal names have equal first parts: two generators, or a generator and the mark.
  obtain ⟨rest', h'⟩ | ⟨rest', h'⟩ := h
  · rintro (⟨rest, h⟩ | ⟨rest, h⟩) <;> rw [h'] at h
    · exact hne (hd'.isSegment.eq_of_append hd.isSegment h)
    · rw [deriving_append] at h
      exact hd'.ne_mark (hd'.isSegment.eq_of_append isSegment_deriving h)
  · rintro (⟨rest, h⟩ | ⟨rest, h⟩) <;> rw [h', deriving_append] at h
    · exact hd.ne_mark (isSegment_deriving.eq_of_append hd.isSegment h).symm
    · rw [deriving_append, String.append_right_inj] at h
      exact hne (hd'.isSegment.eq_of_append hd.isSegment h)

/-- An attribute of a generator has a dot in its name, so it is no unqualified one. -/
theorem IsOf.not_isSegment (h : a.IsOf d) : ¬ IsSegment a.name.value := by
  obtain ⟨rest, hrest⟩ | ⟨rest, hrest⟩ := h <;> rw [hrest] <;> exact not_isSegment_append _ rest

/-! ## the spelling that counts -/

/-- An attribute that begins differently makes no difference to the question. -/
theorem anyBegins_insert {front : String} (h : ¬ a.Begins front)
    (before after : List (Attribute π)) :
    anyBegins front (before ++ a :: after) = anyBegins front (before ++ after) := by
  rw [Bool.eq_iff_iff, anyBegins_iff, anyBegins_iff]
  simp [or_and_right, exists_or, h]

/-- An attribute of another generator is spelled in none of the ways that the lookup may ask for. -/
theorem ne_spelling (hof : ¬ a.IsOf d) (hname : a.name.value ≠ n)
    (attributes : List (Attribute π)) :
    a.name.value ≠ spelling d n attributes := by
  obtain ⟨hshort, hfull⟩ := not_or.1 hof
  rw [spelling]
  split
  · exact fun h => hfull ⟨n, h⟩
  · split
    · exact fun h => hshort ⟨n, h⟩
    · exact hname

/-- An attribute that is not spelled with the name of the generator and is not called `n` makes no
difference. -/
theorem find?_insert (hof : ¬ a.IsOf d) (hname : a.name.value ≠ n)
    (before after : List (Attribute π)) :
    find? d n (before ++ a :: after) = find? d n (before ++ after) := by
  obtain ⟨hshort, hfull⟩ := not_or.1 hof
  have hspelling : spelling d n (before ++ a :: after) = spelling d n (before ++ after) := by
    rw [spelling, spelling, anyBegins_insert hfull, anyBegins_insert hshort]
  have hother := ne_spelling hof hname (before ++ after)
  unfold find?
  simp [hspelling, List.find?_append, hother]

section

variable {attributes : List (Attribute π)}

/-- A full spelling anywhere among the attributes wins over the other two. -/
theorem spelling_full (h : ∃ a ∈ attributes, a.Begins ("deriving." ++ d ++ ".")) :
    spelling d n attributes = "deriving." ++ d ++ "." ++ n := by
  rw [spelling, if_pos (anyBegins_iff.2 h)]

/-- The short spelling wins over the unqualified one. -/
theorem spelling_short (hfull : ¬ ∃ a ∈ attributes, a.Begins ("deriving." ++ d ++ "."))
    (h : ∃ a ∈ attributes, a.Begins (d ++ ".")) : spelling d n attributes = d ++ "." ++ n := by
  rw [spelling, if_neg (mt anyBegins_iff.1 hfull), if_pos (anyBegins_iff.2 h)]

/-- Without a qualified attribute the name is looked for as it is. -/
theorem spelling_bare (hfull : ¬ ∃ a ∈ attributes, a.Begins ("deriving." ++ d ++ "."))
    (hshort : ¬ ∃ a ∈ attributes, a.Begins (d ++ ".")) : spelling d n attributes = n := by
  rw [spelling, if_neg (mt anyBegins_iff.1 hfull), if_neg (mt anyBegins_iff.1 hshort)]

end

/-- What is found under a name: the first attribute called so, or nothing if there is none. -/
inductive FirstNamed (name : String) (attributes : List (Attribute π)) : Option (Attribute π) → Prop
  | some {before after : List (Attribute π)} {a : Attribute π}
      (hsplit : attributes = before ++ a :: after) (hname : a.name.value = name)
      (hbefore : ∀ b ∈ before, b.name.value ≠ name) : FirstNamed name attributes (some a)
  | none (h : ∀ a ∈ attributes, a.name.value ≠ name) : FirstNamed name attributes none

/-- What the lookup finds is the first attribute of the spelling that it has settled on
(`FirstNamed`). -/
theorem firstNamed_find? (d n : String) (attributes : List (Attribute π)) :
    FirstNamed (spelling d n attributes) attributes (find? d n attributes) := by
  cases h : find? d n attributes with
  | none =>
      rw [find?, List.find?_eq_none] at h
      exact .none (by simpa using h)
  | some a =>
      obtain ⟨hname, before, after, hsplit, hbefore⟩ := List.find?_eq_some_iff_append.1 h
      exact .some hsplit (by simpa using hname) (by simpa using hbefore)

/-- **Lookup isolates generators.** An attribute spelled with the name of one generator makes no
difference for another generator, wherever it stands. For one generator, the most explicit spelling
on a node decides: what is found is the first attribute that has the name in this spelling. -/
theorem lookup_isolates_generators :
    (∀ (d d' n : String) (a : Attribute π) (before after : List (Attribute π)),
      IsGeneratorName d → IsGeneratorName d' → IsSegment n → d' ≠ d → a.IsOf d' →
      find? d n (before ++ a :: after) = find? d n (before ++ after) ∧
      isPresent d n (before ++ a :: after) = isPresent d n (before ++ after)) ∧
    ∀ (d n : String) (attributes : List (Attribute π)),
      let full := "deriving." ++ d ++ "."
      let short := d ++ "."
      ((∃ a ∈ attributes, a.Begins full) →
        FirstNamed (full ++ n) attributes (find? d n attributes)) ∧
      ((¬ ∃ a ∈ attributes, a.Begins full) → (∃ a ∈ attributes, a.Begins short) →
        FirstNamed (short ++ n) attributes (find? d n attributes)) ∧
      ((¬ ∃ a ∈ attributes, a.Begins full) → (¬ ∃ a ∈ attributes, a.Begins short) →
        FirstNamed n attributes (find? d n attributes)) := by
  refine ⟨fun d d' n a before after hd hd' hn hne hof => ?_, fun d n attributes => ?_⟩
  · have hname : a.name.value ≠ n := fun h => hof.not_isSegment (h ▸ hn)
    have hfind := find?_insert (hof.not_isOf hd' hd hne) hname before after
    exact ⟨hfind, congrArg Option.isSome hfind⟩
  · have hfound := firstNamed_find? d n attributes
    refine ⟨fun hfull => ?_, fun hfull hshort => ?_, fun hfull hshort => ?_⟩
    · rwa [spelling_full hfull] at hfound
    · rwa [spelling_short hfull hshort] at hfound
    · rwa [spelling_bare hfull hshort] at hfound

/-- Attributes of a generator whose name goes on after that of another one: before a bare attribute,
and between two in other spellings. -/
theorem lookup_isolates_generators_shows :
    let number (n : Nat) (name : String) : Attribute Nat := .named name n .generated
    let bare := [number 2 "printer"]
    let short := [number 1 "printer", number 2 "show.opaque"]
    let full := [number 1 "show.printer", number 2 "deriving.shows.x",
      number 3 "deriving.show.printer"]
    (find? "show" "printer" (number 1 "shows.printer" :: bare) = some (number 2 "printer") ∧
      isPresent "show" "opaque" (number 1 "shows.opaque" :: bare) = false) ∧
    FirstNamed "deriving.show.printer" full (find? "show" "printer" full) ∧
    FirstNamed "show.printer" short (find? "show" "printer" short) ∧
    FirstNamed "printer" bare (find? "show" "printer" bare) := by
  intro number bare short full
  obtain ⟨hisolated, hone⟩ := @lookup_isolates_generators Nat
  have hshow : IsGeneratorName "show" := ⟨by decide, by decide⟩
  have hshows : IsGeneratorName "shows" := ⟨by decide, by decide⟩
  have hinsert (n : String) (hn : IsSegment n) :=
    hisolated "show" "shows" n (number 1 ("shows." ++ n))
    [] bare hshow hshows hn (by decide) (.inl ⟨n, rfl⟩)
  have hprinter : find? "show" "printer" ([] ++ bare) = some (number 2 "printer") := by
    simp [find?, spelling, anyBegins, bare, number, named]
  have hopaque : isPresent "show" "opaque" ([] ++ bare) = false := by
    simp [isPresent, find?, spelling, anyBegins, bare, number, named]
  obtain ⟨hfull, -, -⟩ := hone "show" "printer" full
  obtain ⟨-, hshort, -⟩ := hone "show" "printer" short
  obtain ⟨-, -, hbare⟩ := hone "show" "printer" bare
  refine ⟨⟨(hinsert "printer" (by decide)).1.trans hprinter,
    (hinsert "opaque" (by decide)).2.trans hopaque⟩, ?_, ?_, ?_⟩
  · exact hfull ⟨number 3 "deriving.show.printer", by simp [full], "printer", rfl⟩
  · exact hshort (mt anyBegins_iff.2 (by decide))
      ⟨number 2 "show.opaque", by simp [short], "opaque", rfl⟩
  · exact hbare (mt anyBegins_iff.2 (by decide)) (mt anyBegins_iff.2 (by decide))

end Attribute

end DeriveKit
