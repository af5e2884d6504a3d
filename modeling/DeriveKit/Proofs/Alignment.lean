import Mathlib.Data.List.Forall2
import DeriveKit.Proofs.Reading

/-!
# DeriveKit.Proofs.Alignment

Two texts side by side, to say that texts of one form differ only as what they are made from does.
Aligned texts end at the same place wherever they are read (`Aligned`). Brackets are what may bring
two texts out of step: a text in brackets must not begin as the same text does without them
(`Unshifted`). `Tells` says both of two texts, and the lemmas here compose it:

* `Tells.word`, `Tells.bracket`, `Tells.follow` — by what the texts begin with;
* `Tells.plain_bracketed` — for a text in brackets and one without;
* `Tells.shifted` — for a text behind `:: ((` and one without.

The last of them needs more than brackets to be kept in mind: in a `wide` view the colon and the
space, with which a pair after a constructor of lists begins, count as openings too (`isOpening`).
-/

namespace DeriveKit

/-! ## texts that end at the same place -/

/-- Wherever both texts are read, they end at the same place, and `Q` holds. -/
def Aligned (Q : Prop) (t t' : String) : Prop :=
  ∀ s s' : List Char, t.toList ++ s = t'.toList ++ s' → Q ∧ s = s'

namespace Aligned

variable {Q R : Prop} {t t' u u' : String}

/-- A text is aligned with itself. -/
theorem refl (h : Q) (t : String) : Aligned Q t t := fun _ _ heq =>
  ⟨h, List.append_cancel_left heq⟩

theorem imp (h : Aligned Q t t') (hQ : Q → R) : Aligned R t t' := fun s s' heq =>
  ⟨hQ (h s s' heq).1, (h s s' heq).2⟩

/-- Which of two texts is the first does not matter. -/
theorem symm (h : Aligned Q t t') : Aligned Q t' t := fun s s' heq =>
  ⟨(h s' s heq.symm).1, (h s' s heq.symm).2.symm⟩

/-- Aligned texts may follow on each other; then both facts hold. -/
theorem append (h : Aligned Q t t') (k : Aligned R u u') : Aligned (Q ∧ R) (t ++ u) (t' ++ u') := by
  intro s s' heq
  simp only [String.toList_append, List.append_assoc] at heq
  obtain ⟨hQ, hrest⟩ := h _ _ heq
  obtain ⟨hR, hend⟩ := k _ _ hrest
  exact ⟨⟨hQ, hR⟩, hend⟩

/-- A common beginning keeps texts aligned. -/
theorem lead (w : String) (h : Aligned Q t t') : Aligned Q (w ++ t) (w ++ t') :=
  ((refl trivial w).append h).imp And.right

/-- A common end keeps texts aligned. -/
theorem trail (h : Aligned Q t t') (w : String) : Aligned Q (t ++ w) (t' ++ w) :=
  (h.append (refl trivial w)).imp And.left

/-- Texts that are read back are told apart by what is read. -/
theorem of_reads {α : Type} {read : Reader α} {stops : List Char → Prop} {a a' : α}
    (h : Reads read stops t a) (h' : Reads read stops t' a') {w : String}
    (hw : ∀ s, stops (w.toList ++ s)) : Aligned (a = a') (t ++ w) (t' ++ w) := by
  intro s s' heq
  simp only [String.toList_append, List.append_assoc] at heq
  have hread : some (a, w.toList ++ s) = some (a', w.toList ++ s') := by
    rw [← h _ (hw s), heq, h' _ (hw s')]
  obtain ⟨ha, hrest⟩ := Prod.mk.inj (Option.some.inj hread)
  exact ⟨ha, List.append_cancel_left hrest⟩

/-- Equal texts that are aligned come from what `Q` says is equal. -/
theorem of_eq (h : Aligned Q t t') (heq : t = t') : Q := (h [] [] (by rw [heq])).1

end Aligned

section

variable {α β : Type} {f : α → String} {k : α → β} {xs xs' : List α}

/-- What is related one by one is related at the front. -/
theorem forall₂_head? {R : α → α → Prop} (h : List.Forall₂ R xs xs') :
    ∀ x ∈ xs.head?, ∀ x' ∈ xs'.head?, R x x' := by
  cases h with
  | nil => exact nofun
  | cons h _ =>
      rintro _ ⟨⟩ _ ⟨⟩
      exact h

/-- Texts with something in front of each are aligned if they are one by one. They are as many on
both sides. -/
theorem Aligned.leadEach
    (h : List.Forall₂ (fun x x' => Aligned (k x = k x') (f x) (f x')) xs xs') (l : String) :
    Aligned (xs.map k = xs'.map k) (leadEach l (xs.map f)) (leadEach l (xs'.map f)) := by
  induction h with
  | nil => exact .refl rfl _
  | cons hx _ ih =>
      simp only [List.map_cons, DeriveKit.leadEach]
      refine ((hx.lead l).append ih).imp fun hQ => ?_
      rw [hQ.1, hQ.2]

/-- And so are texts with separators. -/
theorem Aligned.joinWith
    (h : List.Forall₂ (fun x x' => Aligned (k x = k x') (f x) (f x')) xs xs') (sep : String) :
    Aligned (xs.map k = xs'.map k) (joinWith sep (xs.map f)) (joinWith sep (xs'.map f)) := by
  cases h with
  | nil => exact .refl rfl _
  | cons hx hxs =>
      simp only [List.map_cons, joinWith_cons]
      refine (hx.append (Aligned.leadEach hxs sep)).imp fun hQ => ?_
      rw [hQ.1, hQ.2]

end

/-! ## brackets in front -/

/-- The characters that stand around a text to hold it together, and in a wide view those that stand
before a pair. -/
def isOpening (wide : Bool) (c : Char) : Bool :=
  c == '(' || c == '[' || wide && (c == ':' || c == ' ')

/-- The texts of these characters. -/
def brackets : List String := ["(", "["]

/-- Whether there is more to a word than openings. -/
def isSolid (wide : Bool) (w : String) : Bool := w.toList.any fun c => !isOpening wide c

/-- With openings before it, `t` does not begin as `t'` does, if what follows `t` is as `goesOn`
says. -/
def Unshifted (wide : Bool) (goesOn : List Char → Prop) (t t' : String) : Prop :=
  ∀ opening s s', opening ≠ [] → opening.all (isOpening wide) → goesOn s →
    opening ++ (t.toList ++ s) ≠ t'.toList ++ s'

section

variable {wide : Bool} {goesOn further : List Char → Prop} {t t' b : String}

/-- A bracket is an opening in every view. -/
theorem isOpening_of_narrow {c : Char} (h : isOpening false c) : isOpening wide c := by
  rw [isOpening, Bool.false_and, Bool.or_false] at h
  rw [isOpening, h, Bool.true_or]

/-- A word that is solid in the wide view is so in every view. -/
theorem isSolid_of_wide {w : String} (h : isSolid true w) : isSolid wide w := by
  cases wide with
  | true => exact h
  | false =>
      obtain ⟨c, hc, hsolid⟩ := List.any_eq_true.1 h
      refine List.any_eq_true.2 ⟨c, hc, ?_⟩
      rw [Bool.not_eq_true'] at hsolid ⊢
      exact Bool.eq_false_iff.2 fun hopening =>
        Bool.eq_false_iff.1 hsolid (isOpening_of_narrow hopening)

/-- A bracket is one opening character. -/
theorem exists_isOpening (hb : b ∈ brackets) : ∃ c, isOpening false c ∧ b.toList = [c] := by
  have hall : brackets.all fun b => b.toList.all (isOpening false) && b.length == 1 := by decide
  have hone := List.all_eq_true.1 hall b hb
  rw [Bool.and_eq_true, beq_iff_eq, ← String.length_toList] at hone
  obtain ⟨c, hc⟩ := List.length_eq_one_iff.1 hone.2
  rw [hc] at hone
  exact ⟨c, by simpa using hone.1, hc⟩

/-- Openings before a word take the place of its first characters, to the end of the word. -/
theorem unshifted_word {w : String} (h : isSolid wide w) (t t' : String) :
    Unshifted wide goesOn (w ++ t) (w ++ t') := by
  suffices hword : ∀ cs : List Char, cs.any (fun c => !isOpening wide c) →
      ∀ opening s s' : List Char, opening ≠ [] → opening.all (isOpening wide) →
        opening ++ (cs ++ s) ≠ cs ++ s' by
    intro opening s s' hne hopening _ heq
    simp only [String.toList_append, List.append_assoc] at heq
    exact hword w.toList h opening _ _ hne hopening heq
  intro cs
  induction cs with
  | nil => exact fun h => absurd h Bool.false_ne_true
  | cons c cs ih =>
      intro hsolid opening s s' hne hopening heq
      obtain ⟨b, opening, rfl⟩ := List.exists_cons_of_ne_nil hne
      obtain ⟨rfl, heq⟩ := List.cons.inj heq
      rw [List.all_cons, Bool.and_eq_true] at hopening
      rw [List.any_cons, hopening.1, Bool.not_true, Bool.false_or] at hsolid
      refine ih hsolid (opening ++ [b]) s s' (by simp) (by simp [hopening.1, hopening.2]) ?_
      rw [List.append_assoc, List.singleton_append]
      exact heq

namespace Unshifted

theorem mono (h : Unshifted wide goesOn t t') (hs : ∀ s, further s → goesOn s) :
    Unshifted wide further t t' := fun opening s s' hne hopening hfurther =>
  h opening s s' hne hopening (hs s hfurther)

/-- What holds in the wide view holds in every view. -/
theorem narrow (h : Unshifted true goesOn t t') : Unshifted wide goesOn t t' := by
  intro opening s s' hne hopening hs
  refine h opening s s' hne (List.all_eq_true.2 fun c hc => ?_) hs
  have hchar := List.all_eq_true.1 hopening c hc
  cases wide with
  | true => exact hchar
  | false => exact isOpening_of_narrow hchar

/-- A bracket in front of the first text is one more bracket. -/
theorem lead (h : Unshifted wide goesOn t t') (hb : b ∈ brackets) :
    Unshifted wide goesOn (b ++ t) t' := by
  obtain ⟨c, hc, hchars⟩ := exists_isOpening hb
  intro opening s s' _ hopening hs heq
  refine h (opening ++ [c]) s s' (by simp) (by simp [hopening, isOpening_of_narrow hc]) hs ?_
  rw [← heq, String.toList_append, hchars, List.append_assoc, List.append_assoc]

/-- A bracket in front of the second text is one of those in front of the first. -/
theorem lead_right (h : Unshifted wide goesOn t t')
    (hne : ∀ s s', goesOn s → t.toList ++ s ≠ t'.toList ++ s') (hb : b ∈ brackets) :
    Unshifted wide goesOn t (b ++ t') := by
  obtain ⟨c, -, hchars⟩ := exists_isOpening hb
  intro opening s s' hnil hopening hs heq
  obtain ⟨d, opening, rfl⟩ := List.exists_cons_of_ne_nil hnil
  rw [String.toList_append, hchars, List.append_assoc] at heq
  have htail := (List.cons.inj heq).2
  rw [List.all_cons, Bool.and_eq_true] at hopening
  cases opening with
  | nil => exact hne s s' hs htail
  | cons d opening => exact h (d :: opening) s s' (by simp) hopening.2 hs htail

/-- A text in brackets does not begin as the text itself. -/
theorem ne (h : Unshifted wide goesOn t t') (hb : b ∈ brackets) (s s' : List Char) (hs : goesOn s) :
    (b ++ t).toList ++ s ≠ t'.toList ++ s' := by
  obtain ⟨c, hc, hchars⟩ := exists_isOpening hb
  rw [String.toList_append, hchars, List.append_assoc]
  exact h [c] s s' (by simp) (by simp [isOpening_of_narrow hc]) hs

/-- A bracket in front of both texts changes nothing. -/
theorem bracket (h : Unshifted wide goesOn t t') (hb : b ∈ brackets) {c : String}
    (hc : c ∈ brackets) : Unshifted wide goesOn (b ++ t) (c ++ t') :=
  (h.lead hb).lead_right (h.ne hb) hc

/-- What follows the first text takes the place of the condition on what may follow. -/
theorem append_left (h : Unshifted wide goesOn t t') {u : String}
    (hu : ∀ s, goesOn (u.toList ++ s)) : Unshifted wide further (t ++ u) t' := by
  intro opening s s' hne hopening _ heq
  rw [String.toList_append, List.append_assoc] at heq
  exact h opening _ s' hne hopening (hu s) heq

/-- What follows the second text is part of its rest. -/
theorem append_right (h : Unshifted wide goesOn t t') (hs : ∀ s, further s → goesOn s)
    (u' : String) :
    Unshifted wide further t (t' ++ u') := by
  intro opening s s' hne hopening hfurther heq
  rw [String.toList_append, List.append_assoc] at heq
  exact h opening s _ hne hopening (hs s hfurther) heq

theorem append (h : Unshifted wide goesOn t t') {u : String} (hu : ∀ s, goesOn (u.toList ++ s))
    (u' : String) : Unshifted wide further (t ++ u) (t' ++ u') :=
  (h.append_left hu).append_right (fun _ hs => hs) u'

end Unshifted

end

/-! ## texts that tell trees apart -/

/-- Two texts end at the same place only if `Q` holds, and openings in front do not hide it. -/
structure Tells (wide : Bool) (goesOn : List Char → Prop) (Q : Prop) (t t' : String) : Prop where
  aligned : Aligned Q t t'
  unshifted : Unshifted wide goesOn t t'
  unshifted_symm : Unshifted wide goesOn t' t

namespace Tells

variable {wide : Bool} {goesOn further : List Char → Prop} {Q R : Prop} {t t' u u' : String}

theorem mono (h : Tells wide goesOn Q t t') (hs : ∀ s, further s → goesOn s) :
    Tells wide further Q t t' :=
  ⟨h.aligned, h.unshifted.mono hs, h.unshifted_symm.mono hs⟩

/-- What the wide view tells apart every view does. -/
theorem narrow (h : Tells true goesOn Q t t') : Tells wide goesOn Q t t' :=
  ⟨h.aligned, h.unshifted.narrow, h.unshifted_symm.narrow⟩

theorem symm (h : Tells wide goesOn Q t t') : Tells wide goesOn Q t' t :=
  ⟨h.aligned.symm, h.unshifted_symm, h.unshifted⟩

theorem imp (h : Tells wide goesOn Q t t') (hQ : Q → R) : Tells wide goesOn R t t' :=
  { h with aligned := h.aligned.imp hQ }

/-- A word in front keeps both texts in step. -/
theorem word {w : String} (hw : isSolid wide w) (h : Aligned Q t t') :
    Tells wide goesOn Q (w ++ t) (w ++ t') :=
  ⟨h.lead w, unshifted_word hw t t', unshifted_word hw t' t⟩

/-- A word that is solid in the wide view does so in every view. -/
theorem keyword {w : String} (hw : isSolid true w) (h : Aligned Q t t') :
    Tells wide goesOn Q (w ++ t) (w ++ t') := word (isSolid_of_wide hw) h

/-- A word tells nothing but itself, as long as it is more than openings. -/
theorem leaf {w : String} (hw : isSolid wide w) (h : Q) : Tells wide goesOn Q w w := by
  have hword : Tells wide goesOn Q (w ++ "") (w ++ "") := word hw (.refl h "")
  rwa [String.append_empty] at hword

/-- So does a bracket in front, if the texts in brackets are told apart. -/
theorem bracket (h : Tells wide goesOn Q t t') {b : String} (hb : b ∈ brackets) :
    Tells wide goesOn Q (b ++ t) (b ++ t') :=
  ⟨h.aligned.lead b, h.unshifted.bracket hb hb, h.unshifted_symm.bracket hb hb⟩

/-- Texts that are told apart stay so when aligned ones follow. -/
theorem follow (h : Tells wide goesOn Q t t') (hu : ∀ s, goesOn (u.toList ++ s))
    (hu' : ∀ s, goesOn (u'.toList ++ s)) (k : Aligned R u u') :
    Tells wide further (Q ∧ R) (t ++ u) (t' ++ u') :=
  ⟨h.aligned.append k, h.unshifted.append hu u', h.unshifted_symm.append hu' u⟩

/-- Texts with separators between them and a closing word, such as stand in brackets. Openings can
only stand before the first of them. -/
theorem joinWith {α β : Type} {f : α → String} {k : α → β} {xs xs' : List α}
    (h : List.Forall₂ (fun x x' => Aligned (k x = k x') (f x) (f x')) xs xs')
    (hfirst : ∀ x ∈ xs.head?, ∀ x' ∈ xs'.head?, Tells wide goesOn (k x = k x') (f x) (f x'))
    (sep close : String) (hsep : ∀ t s, goesOn ((sep ++ t).toList ++ s))
    (hclose : ∀ s, goesOn (close.toList ++ s)) (hsolid : isSolid true close) :
    Tells wide further (xs.map k = xs'.map k) (joinWith sep (xs.map f) ++ close)
      (joinWith sep (xs'.map f) ++ close) := by
  cases h with
  | nil =>
      simp only [List.map_nil, DeriveKit.joinWith, String.empty_append]
      exact .leaf (isSolid_of_wide hsolid) trivial
  | @cons x x' xs xs' _ hxs =>
      have hx := hfirst x rfl x' rfl
      have hrest := (Aligned.leadEach hxs sep).trail close
      have hnext : ∀ (ts : List String) (s : List Char),
          goesOn ((DeriveKit.leadEach sep ts ++ close).toList ++ s) := by
        intro ts s
        cases ts with
        | nil => simpa [DeriveKit.leadEach] using hclose s
        | cons t ts =>
            rw [DeriveKit.leadEach, String.append_assoc, String.append_assoc]
            exact hsep _ s
      simp only [List.map_cons, joinWith_cons, String.append_assoc]
      refine (hx.follow (hnext _) (hnext _) hrest).imp fun hQ => ?_
      rw [hQ.1, hQ.2]

/-- A text in brackets and one without do not end at the same place, and no further brackets bring
them in step, unless they go on alike. -/
theorem plain_bracketed (h : Unshifted wide (fun _ => True) t t')
    (h' : Unshifted wide (fun _ => True) t' t)
    (hne : ∀ s s', goesOn s → t.toList ++ s ≠ t'.toList ++ s') {b : String} (hb : b ∈ brackets) :
    Tells wide goesOn R t (b ++ t') where
  aligned s s' heq := absurd heq.symm (h'.ne hb s' s trivial)
  unshifted := (h.mono fun _ _ => trivial).lead_right hne hb
  unshifted_symm := (h'.mono fun _ _ => trivial).lead hb

/-- Nor do texts in different brackets. -/
theorem differently_bracketed (h : Unshifted wide (fun _ => True) t t')
    (h' : Unshifted wide (fun _ => True) t' t) {b c : String} (hb : b ∈ brackets)
    (hc : c ∈ brackets) (hne : b ≠ c) : Tells wide goesOn R (b ++ t) (c ++ t') where
  aligned s s' heq := by
    obtain ⟨x, -, hx⟩ := exists_isOpening hb
    obtain ⟨y, -, hy⟩ := exists_isOpening hc
    rw [String.toList_append, String.toList_append, hx, hy] at heq
    obtain ⟨rfl, -⟩ := List.cons.inj heq
    exact absurd (String.toList_injective (hx.trans hy.symm)) hne
  unshifted := (h.bracket hb hc).mono fun _ _ => trivial
  unshifted_symm := (h'.bracket hc hb).mono fun _ _ => trivial

/-- Openings in front of both texts change nothing. -/
theorem openings (h : Tells wide goesOn Q t t') {w : String}
    (hw : w.toList.all (isOpening wide)) : Tells wide goesOn Q (w ++ t) (w ++ t') := by
  suffices hshift : ∀ {t t' : String}, Unshifted wide goesOn t t' →
      Unshifted wide goesOn (w ++ t) (w ++ t') from
    ⟨h.aligned.lead w, hshift h.unshifted, hshift h.unshifted_symm⟩
  intro t t' h opening s s' hne hopening hs heq
  simp only [String.toList_append, List.append_assoc] at heq
  -- The openings before the word are as many as those before what follows it.
  have hall : (opening ++ w.toList).all (isOpening wide) := by
    rw [List.all_append, hopening, hw, Bool.and_self]
  have hlength : w.toList.length < (opening ++ w.toList).length := by
    rw [List.length_append]
    exact Nat.lt_add_of_pos_left (List.length_pos_iff.2 hne)
  have hrest : (opening ++ w.toList).drop w.toList.length ++ (t.toList ++ s) = t'.toList ++ s' := by
    rw [← List.drop_append_of_le_length (Nat.le_of_lt hlength), List.append_assoc, heq,
      List.drop_left]
  refine h _ s s' (fun hnil => ?_) ?_ hs hrest
  · rw [List.drop_eq_nil_iff] at hnil
    omega
  · exact List.all_eq_true.2 fun c hc => List.all_eq_true.1 hall c (List.mem_of_mem_drop hc)

/-- Openings in front of one of two texts that go on differently tell them apart. -/
theorem shifted (h : Tells wide goesOn Q t t') {w : String} (hne : w.toList ≠ [])
    (hw : w.toList.all (isOpening wide)) (hu : ∀ s, goesOn (u.toList ++ s))
    (hu' : ∀ s, goesOn (u'.toList ++ s)) (hapart : ∀ s s', u.toList ++ s ≠ u'.toList ++ s') :
    Tells wide (fun _ => True) False (w ++ (t ++ u)) (t' ++ u') := by
  have hforth : ∀ opening s s', opening ≠ [] → opening.all (isOpening wide) →
      opening ++ (t.toList ++ (u.toList ++ s)) ≠ t'.toList ++ (u'.toList ++ s') :=
    fun opening s s' hnil hopening => h.unshifted opening _ _ hnil hopening (hu s)
  have hback : ∀ opening s s', opening ≠ [] → opening.all (isOpening wide) →
      opening ++ (t'.toList ++ (u'.toList ++ s)) ≠ t.toList ++ (u.toList ++ s') :=
    fun opening s s' hnil hopening => h.unshifted_symm opening _ _ hnil hopening (hu' s)
  have hsame : ∀ s s', t.toList ++ (u.toList ++ s) ≠ t'.toList ++ (u'.toList ++ s') :=
    fun s s' heq => hapart s s' (h.aligned _ _ heq).2
  refine ⟨fun s s' heq => ?_, fun opening s s' _ hopening _ heq => ?_,
    fun opening s s' _ hopening _ heq => ?_⟩ <;>
    simp only [String.toList_append, List.append_assoc] at heq
  · exact absurd heq (hforth _ s s' hne hw)
  · rw [← List.append_assoc] at heq
    exact hforth _ s s' (by simp [hne]) (by rw [List.all_append, hopening, hw, Bool.and_self]) heq
  · -- Either the word begins with the openings, or the openings begin with the word.
    obtain ⟨rest, hword, hrest⟩ | ⟨rest, rfl, hrest⟩ := List.append_eq_append_iff.1 heq
    · rw [hword, List.all_append, Bool.and_eq_true] at hw
      cases rest with
      | nil => exact hsame s' s hrest.symm
      | cons c rest => exact hforth (c :: rest) s' s nofun hw.2 hrest.symm
    · rw [List.all_append, Bool.and_eq_true] at hopening
      cases rest with
      | nil => exact hsame s' s hrest
      | cons c rest => exact hback (c :: rest) s s' nofun hopening.2 hrest.symm

end Tells

end DeriveKit
