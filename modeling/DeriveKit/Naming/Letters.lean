/-!
# DeriveKit.Naming.Letters

An enumeration of the words of small letters for naming type variables, and the search for the first
of them that is not taken yet.

Nothing in the search says how long it takes. It ends because a word says which number it has
(`wordNumber_letterWord`): every name that turns out to be taken is a bound name that no later
candidate can be.
-/

namespace DeriveKit

/-! ## numbers and words -/

/-- The small letter with the given place in the alphabet. -/
def letter (n : Nat) : Char := Char.ofNat ('a'.toNat + n % 26)

/-- The digits of a number to the base 26, least significant first, written as letters. -/
def letterWord (n : Nat) : List Char :=
  if n < 26 then [letter n] else letter n :: letterWord (n / 26)

/-- The name with the given number: `a` to `z`, then words of two letters and more. -/
def letterName (n : Nat) : String := String.ofList (letterWord n)

/-- The place of a small letter in the alphabet. -/
def letterIndex (c : Char) : Nat := c.toNat - 'a'.toNat

/-- The number whose digits to the base 26 are the letters, least significant first. -/
def wordNumber : List Char → Nat
  | [] => 0
  | c :: cs => letterIndex c + 26 * wordNumber cs

/-- Small letters stand in a row from 97 on. -/
theorem toNat_letter (n : Nat) : (letter n).toNat = 97 + n % 26 := by
  have hvalid : ('a'.toNat + n % 26).isValidChar := .inl (by simp; omega)
  rw [letter, Char.ofNat, dif_pos hvalid]
  rfl

/-- A letter says which number below 26 it stands for. -/
theorem letterIndex_letter (n : Nat) : letterIndex (letter n) = n % 26 := by
  rw [letterIndex, toNat_letter]
  exact Nat.add_sub_cancel_left 97 (n % 26)

/-- A word says which number it has, so different numbers have different words. -/
theorem wordNumber_letterWord (n : Nat) : wordNumber (letterWord n) = n := by
  induction n using letterWord.induct with
  | case1 n hsmall =>
      rw [letterWord, if_pos hsmall, wordNumber, wordNumber, letterIndex_letter]
      omega
  | case2 n hlarge ih =>
      rw [letterWord, if_neg hlarge, wordNumber, ih, letterIndex_letter]
      omega

@[simp] theorem toList_letterName (n : Nat) : (letterName n).toList = letterWord n :=
  String.toList_ofList

/-! ## the search -/

/-- The first name in the enumeration that is not in `bound`, of those from the given number on. -/
def firstFree (bound : List String) (i : Nat) : String :=
  if letterName i ∈ bound then firstFree bound (i + 1) else letterName i
termination_by (bound.filter fun name => i ≤ wordNumber name.toList).length
decreasing_by
  -- The candidate is itself a bound name from `i` on, but none from `i + 1` on.
  rename_i hbound
  have hsub : bound.filter (fun name => i + 1 ≤ wordNumber name.toList) =
      (bound.filter fun name => i ≤ wordNumber name.toList).filter
        fun name => i + 1 ≤ wordNumber name.toList := by
    rw [List.filter_filter]
    exact List.filter_congr fun name _ => by grind
  rw [hsub, List.length_filter_lt_length_iff_exists]
  refine ⟨letterName i, List.mem_filter.2 ⟨hbound, ?_⟩, ?_⟩ <;> simp [wordNumber_letterWord]

/-- The first name in the enumeration that is not in `bound`. -/
def freshName (bound : List String) : String := firstFree bound 0

end DeriveKit
