import DeriveKit.Naming.Letters
import Mathlib.Algebra.BigOperators.Fin
import Mathlib.Data.List.Nodup
import Mathlib.Order.Bounds.Basic
import Mathlib.Tactic.Ring

/-!
# DeriveKit.Proofs.FreshNames

The enumeration of names meets every word of small letters that is the writing of a number, each
once, and the search for a name that is not taken stops at the first one there is.

* `letterWord_wordNumber` — a word is the name with the number that it writes;
* `Search` — the runs of the search, with the number of candidates they look at;
* `fresh_names_are_enumerated` — the result.
-/

namespace DeriveKit

/-! ## letters as digits -/

/-- Small letters are those from `a` to `z`. -/
theorem isLower_iff_toNat {c : Char} : c.isLower ↔ 97 ≤ c.toNat ∧ c.toNat ≤ 122 := by
  show (decide (c.val ≥ 'a'.val) && decide (c.val ≤ 'z'.val)) = true ↔ _
  rw [Bool.and_eq_true, decide_eq_true_iff, decide_eq_true_iff, ge_iff_le, UInt32.le_iff_toNat_le,
    UInt32.le_iff_toNat_le]
  rfl

/-- Each digit is written as a small letter. -/
theorem isLower_letter (n : Nat) : (letter n).isLower := by
  rw [isLower_iff_toNat, toNat_letter]
  omega

/-- Each small letter is the writing of its index. -/
theorem letter_letterIndex {c : Char} (h : c.isLower) : letter (letterIndex c) = c := by
  have hrange := isLower_iff_toNat.1 h
  have hindex : letterIndex c = c.toNat - 97 := rfl
  have hplace : 'a'.toNat + letterIndex c % 26 = c.toNat := by
    show 97 + letterIndex c % 26 = c.toNat
    omega
  rw [letter, hplace, Char.ofNat_toNat]

/-- There are 26 of them. -/
theorem letterIndex_lt {c : Char} (h : c.isLower) : letterIndex c < 26 := by
  rw [← letter_letterIndex h, letterIndex_letter]
  exact Nat.mod_lt _ (by decide)

/-- Only the letter `a` writes zero. -/
theorem letterIndex_pos {c : Char} (h : c.isLower) (hne : c ≠ 'a') : 0 < letterIndex c := by
  refine Nat.pos_of_ne_zero fun hzero => hne ?_
  rw [← letter_letterIndex h, hzero]
  rfl

/-- No other digit is written as `a`. -/
theorem letter_ne_a {n : Nat} (hpos : 0 < n) (hsmall : n < 26) : letter n ≠ 'a' := by
  intro h
  have hindex := letterIndex_letter n
  rw [h] at hindex
  have hzero : letterIndex 'a' = 0 := rfl
  omega

/-! ## words that are the writing of a number -/

/-- A word that is the writing of a number: small letters, of which there is at least one, and the
most significant is the digit zero only if it is alone. -/
structure IsLetterWord (cs : List Char) : Prop where
  ne_nil : cs ≠ []
  isLower : ∀ c ∈ cs, c.isLower
  last_ne_a : cs.length = 1 ∨ cs.getLast? ≠ some 'a'

/-- A number is written with one letter at least. -/
theorem letterWord_ne_nil (n : Nat) : letterWord n ≠ [] := by
  rw [letterWord]
  split <;> exact List.cons_ne_nil _ _

/-- A number is written in small letters only. -/
theorem isLower_of_mem_letterWord {c : Char} (n : Nat) (h : c ∈ letterWord n) : c.isLower := by
  induction n using letterWord.induct with
  | case1 n hsmall =>
      rw [letterWord, if_pos hsmall, List.mem_singleton] at h
      rw [h]
      exact isLower_letter n
  | case2 n hlarge ih =>
      rw [letterWord, if_neg hlarge, List.mem_cons] at h
      rcases h with rfl | h
      · exact isLower_letter n
      · exact ih h

/-- The last letter of a positive number is not `a`: the word has no zero in its highest place. -/
theorem getLast?_letterWord_ne {n : Nat} (h : 0 < n) : (letterWord n).getLast? ≠ some 'a' := by
  induction n using letterWord.induct with
  | case1 n hsmall =>
      rw [letterWord, if_pos hsmall, List.getLast?_singleton, ne_eq, Option.some.injEq]
      exact letter_ne_a h hsmall
  | case2 n hlarge ih =>
      rw [letterWord, if_neg hlarge, List.getLast?_cons_of_ne_nil (letterWord_ne_nil _)]
      exact ih (by omega)

/-- So the writing of a number is a word as `IsLetterWord` has it. -/
theorem isLetterWord_letterWord (n : Nat) : IsLetterWord (letterWord n) where
  ne_nil := letterWord_ne_nil n
  isLower _ := isLower_of_mem_letterWord n
  last_ne_a := by
    rcases Nat.eq_zero_or_pos n with rfl | hpos
    · exact .inl (by rw [letterWord, if_pos (by decide), List.length_singleton])
    · exact .inr (getLast?_letterWord_ne hpos)

/-- A word with another letter than `a` at its end writes a positive number. -/
theorem wordNumber_pos {cs : List Char} (hlower : ∀ c ∈ cs, c.isLower) (hne : cs ≠ [])
    (hlast : cs.getLast? ≠ some 'a') : 0 < wordNumber cs := by
  induction cs with
  | nil => exact absurd rfl hne
  | cons c cs ih =>
      obtain ⟨hc, hcs⟩ := List.forall_mem_cons.1 hlower
      rw [wordNumber]
      by_cases hnil : cs = []
      · have hca : c ≠ 'a' := by simpa [hnil] using hlast
        have hpos := letterIndex_pos hc hca
        omega
      · rw [List.getLast?_cons_of_ne_nil hnil] at hlast
        have hrest := ih hcs hnil hlast
        omega

/-- A word is the name with the number that it writes. -/
theorem letterWord_wordNumber {cs : List Char} (h : IsLetterWord cs) :
    letterWord (wordNumber cs) = cs := by
  obtain ⟨hne, hlower, hlast⟩ := h
  induction cs with
  | nil => exact absurd rfl hne
  | cons c cs ih =>
      obtain ⟨hc, hcs⟩ := List.forall_mem_cons.1 hlower
      have hindex := letterIndex_lt hc
      by_cases hnil : cs = []
      · have hnumber : wordNumber (c :: cs) = letterIndex c := by
          rw [hnil, wordNumber, wordNumber, Nat.mul_zero, Nat.add_zero]
        rw [hnumber, letterWord, if_pos hindex, letter_letterIndex hc, hnil]
      · have hlast : cs.getLast? ≠ some 'a' := by
          rw [List.getLast?_cons_of_ne_nil hnil] at hlast
          exact hlast.resolve_left fun hone => hnil (by simpa using hone)
        have hpos := wordNumber_pos hcs hnil hlast
        -- The first letter is the remainder, and the others are the writing of the quotient.
        have hletter : letter (wordNumber (c :: cs)) = c := by
          have hmod : wordNumber (c :: cs) % 26 = letterIndex c % 26 := by
            rw [wordNumber, Nat.add_mul_mod_self_left]
          rw [letter, hmod, ← letter, letter_letterIndex hc]
        have hquotient : wordNumber (c :: cs) / 26 = wordNumber cs := by
          rw [wordNumber]
          omega
        rw [letterWord, if_neg (by rw [wordNumber]; omega), hletter, hquotient,
          ih hnil hcs (.inr hlast)]

/-- The number of a word is the sum of its letters, each by the power of its place. -/
theorem wordNumber_eq_sum (cs : List Char) :
    wordNumber cs = ∑ j : Fin cs.length, letterIndex cs[j] * 26 ^ (j : Nat) := by
  induction cs with
  | nil => rfl
  | cons c cs ih =>
      calc wordNumber (c :: cs)
          = letterIndex c + 26 * ∑ j : Fin cs.length, letterIndex cs[j] * 26 ^ (j : Nat) := by
            rw [wordNumber, ih]
        _ = letterIndex c * 26 ^ 0 + ∑ j : Fin cs.length,
          letterIndex cs[j] * 26 ^ ((j : Nat) + 1) := by
            rw [Finset.mul_sum, pow_zero, mul_one]
            congr 1
            exact Finset.sum_congr rfl fun j _ => by ring
        _ = ∑ j : Fin (c :: cs).length, letterIndex (c :: cs)[j] * 26 ^ (j : Nat) :=
            (Fin.sum_univ_succ fun j : Fin (cs.length + 1) =>
              letterIndex (c :: cs)[j] * 26 ^ (j : Nat)).symm

/-- Different numbers are written differently. -/
theorem letterName_injective : Function.Injective letterName := by
  intro m n h
  rw [← wordNumber_letterWord m, ← toList_letterName, h, toList_letterName, wordNumber_letterWord]

/-- Each word is the name with the number that it writes. -/
theorem letterName_wordNumber {s : String} (h : IsLetterWord s.toList) :
    letterName (wordNumber s.toList) = s := by
  rw [letterName, letterWord_wordNumber h, String.ofList_toList]

/-- The names in the enumeration are the words that write a number. -/
theorem exists_letterName_eq_iff {s : String} :
    (∃ n, letterName n = s) ↔ IsLetterWord s.toList := by
  refine ⟨?_, fun h => ⟨_, letterName_wordNumber h⟩⟩
  rintro ⟨n, rfl⟩
  rw [toList_letterName]
  exact isLetterWord_letterWord n

/-! ## runs of the search -/

/-- A run of the search from the name with number `i` on looks at `n` candidates and ends with
`name`. -/
inductive Search (bound : List String) : Nat → Nat → String → Prop
  | found {i : Nat} (h : letterName i ∉ bound) : Search bound i 1 (letterName i)
  | next {i n : Nat} {name : String} (h : letterName i ∈ bound)
      (rest : Search bound (i + 1) n name) : Search bound i (n + 1) name

variable {bound : List String}

/-- The search comes to an end. -/
theorem search_firstFree (bound : List String) (i : Nat) :
    ∃ n, Search bound i n (firstFree bound i) := by
  induction i using firstFree.induct bound with
  | case1 i htaken ih =>
      obtain ⟨n, hrun⟩ := ih
      rw [firstFree, if_pos htaken]
      exact ⟨n + 1, .next htaken hrun⟩
  | case2 i hfree =>
      rw [firstFree, if_neg hfree]
      exact ⟨1, .found hfree⟩

/-- A run looks at names that are taken, and then at one that is free. -/
theorem search_iff {i n : Nat} {name : String} :
    Search bound i n name ↔ ∃ m, n = m + 1 ∧ name = letterName (i + m) ∧
      letterName (i + m) ∉ bound ∧ ∀ j < m, letterName (i + j) ∈ bound := by
  constructor
  · intro h
    induction h with
    | found hfree => exact ⟨0, rfl, rfl, hfree, fun j hj => absurd hj (Nat.not_lt_zero j)⟩
    | @next i n name htaken _ ih =>
        obtain ⟨m, rfl, rfl, hfree, hbefore⟩ := ih
        have hshift : ∀ j, i + 1 + j = i + (j + 1) := fun j => by omega
        rw [hshift] at hfree
        refine ⟨m + 1, rfl, congrArg letterName (hshift m), hfree, fun j hj => ?_⟩
        cases j with
        | zero => exact htaken
        | succ j => exact hshift j ▸ hbefore j (Nat.lt_of_succ_lt_succ hj)
  · rintro ⟨m, rfl, rfl, hfree, hbefore⟩
    induction m generalizing i with
    | zero => exact .found hfree
    | succ m ih =>
        have hshift : ∀ j, i + (j + 1) = i + 1 + j := fun j => by omega
        rw [hshift] at hfree ⊢
        refine .next (hbefore 0 (Nat.succ_pos m)) (ih hfree fun j hj => ?_)
        exact hshift j ▸ hbefore (j + 1) (Nat.succ_lt_succ hj)

/-- Only bound names are passed over, each once. So no candidate has a larger number than there are
bound names, and where their number fits in a machine word, so do the numbers of all candidates. -/
theorem le_length_of_taken {k : Nat} (h : ∀ j < k, letterName j ∈ bound) : k ≤ bound.length := by
  have hnodup : ((List.range k).map letterName).Nodup :=
    List.nodup_range.map letterName_injective
  have hsub : (List.range k).map letterName ⊆ bound := by
    intro name hname
    obtain ⟨j, hj, rfl⟩ := List.mem_map.1 hname
    exact h j (List.mem_range.1 hj)
  simpa using (hnodup.subperm hsub).length_le

/-- The first candidate that is not taken is the least one. -/
theorem isLeast_of_taken {k : Nat} (hfree : letterName k ∉ bound)
    (h : ∀ j < k, letterName j ∈ bound) : IsLeast {i | letterName i ∉ bound} k :=
  ⟨hfree, fun i hi => Nat.le_of_not_lt fun hlt => hi (h i hlt)⟩

/-- The search for a name passes over the names that are taken. -/
theorem freshName_eq (bound : List String) :
    ∃ k, freshName bound = letterName k ∧ letterName k ∉ bound ∧ ∀ j < k, letterName j ∈ bound := by
  obtain ⟨n, hrun⟩ := search_firstFree bound 0
  obtain ⟨k, -, hname, hfree, hbefore⟩ := search_iff.1 hrun
  simp only [Nat.zero_add] at hname hfree hbefore
  exact ⟨k, hname, hfree, hbefore⟩

/-- A fresh name is not among those that are bound. -/
theorem freshName_not_mem (bound : List String) : freshName bound ∉ bound := by
  obtain ⟨k, hname, hfree, -⟩ := freshName_eq bound
  rwa [hname]

/-- Different numbers have different names; the names are the words of small letters that have one
letter or do not end in `a`; and such a word has the number whose digits to the base 26 are its
letters, the first of them least significant. For every list of bound names, the search for a free
name comes to an end, after one candidate more than it passes over, and it passes over no more than
there are bound names; what it finds is the first name in the enumeration that is not bound. -/
theorem fresh_names_are_enumerated :
    Function.Injective letterName ∧
    (∀ s : String, (∃ n, letterName n = s) ↔ s.toList ≠ [] ∧ (∀ c ∈ s.toList, c.isLower) ∧
      (s.toList.length = 1 ∨ s.toList.getLast? ≠ some 'a')) ∧
    (∀ s : String, (∃ n, letterName n = s) ↔
      letterName (∑ j : Fin s.toList.length, letterIndex s.toList[j] * 26 ^ (j : Nat)) = s) ∧
    ∀ bound : List String, ∃ k, k + 1 ≤ bound.length + 1 ∧
      (∀ n name, Search bound 0 n name ↔ n = k + 1 ∧ name = freshName bound) ∧
      freshName bound = letterName k ∧ IsLeast {i | letterName i ∉ bound} k := by
  refine ⟨letterName_injective, fun s => ?_, fun s => ?_, fun bound => ?_⟩
  · rw [exists_letterName_eq_iff]
    exact ⟨fun h => ⟨h.ne_nil, h.isLower, h.last_ne_a⟩, fun h => ⟨h.1, h.2.1, h.2.2⟩⟩
  · rw [← wordNumber_eq_sum]
    exact ⟨fun h => letterName_wordNumber (exists_letterName_eq_iff.1 h), fun h => ⟨_, h⟩⟩
  · obtain ⟨k, hname, hfree, hbefore⟩ := freshName_eq bound
    have hleast := isLeast_of_taken hfree hbefore
    refine ⟨k, Nat.succ_le_succ (le_length_of_taken hbefore), fun n name => ?_, hname, hleast⟩
    rw [search_iff, hname]
    simp only [Nat.zero_add]
    constructor
    · rintro ⟨m, rfl, rfl, hm, hbelow⟩
      obtain rfl : m = k := (isLeast_of_taken hm hbelow).unique hleast
      exact ⟨rfl, rfl⟩
    · rintro ⟨rfl, rfl⟩
      exact ⟨k, rfl, rfl, hfree, hbefore⟩

/-- After `z` comes `ab`: a word of more letters does not end in `a`. -/
example : freshName ((List.range 26).map letterName) = "ab" := by cbv

end DeriveKit
