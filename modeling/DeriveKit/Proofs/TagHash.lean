import DeriveKit.Naming.TagHash
import Mathlib.Algebra.BigOperators.Fin
import Mathlib.Data.Int.ModEq
import Mathlib.Tactic.Ring

/-!
# DeriveKit.Proofs.TagHash

The hash of a tag is the number that its bytes write to the base 223, reduced to 31 bits with a
sign, however often the words of 64 bits wrap around on the way.

* `tagNumber` — the number that bytes write, as an integer;
* `toInt_foldl_modEq` — the word agrees with it up to a multiple of `2 ^ 64`;
* `tagHash_eq_bmod` — the low bits and the sign are one reduction;
* `tagHash_is_exact` — the result.
-/

namespace DeriveKit

/-! ## the number that bytes write -/

/-- The number with one more digit. -/
def addDigit (acc : Int) (byte : UInt8) : Int := acc * 223 + byte.toNat

/-- The number whose digits to the base 223 are the bytes, the first of them most significant. -/
def tagNumber (bytes : List UInt8) : Int := bytes.foldl addDigit 0

/-- Reading on from `start` moves it up by as many digits as there are bytes. -/
theorem foldl_addDigit (bytes : List UInt8) (start : Int) :
    bytes.foldl addDigit start = start * 223 ^ bytes.length + tagNumber bytes := by
  induction bytes generalizing start with
  | nil => simp [tagNumber]
  | cons b bytes ih =>
      rw [tagNumber, List.foldl_cons, List.foldl_cons, ih, ih (addDigit 0 b),
        List.length_cons, addDigit, addDigit]
      ring

/-- The first byte is the highest digit. -/
theorem tagNumber_cons (b : UInt8) (bytes : List UInt8) :
    tagNumber (b :: bytes) = b.toNat * 223 ^ bytes.length + tagNumber bytes := by
  rw [tagNumber, List.foldl_cons, foldl_addDigit, addDigit, zero_mul, zero_add]

/-- The number of two texts in a row is the first moved up by the length of the second, plus the
second. -/
theorem tagNumber_append (s t : List UInt8) :
    tagNumber (s ++ t) = tagNumber s * 223 ^ t.length + tagNumber t := by
  rw [tagNumber, List.foldl_append, foldl_addDigit, ← tagNumber]

/-- The number as a sum over the places of the digits. -/
theorem tagNumber_eq_sum (bytes : List UInt8) :
    tagNumber bytes =
      ∑ i : Fin bytes.length, (bytes[i].toNat : Int) * 223 ^ (bytes.length - 1 - i) := by
  induction bytes with
  | nil => rfl
  | cons b bytes ih =>
      have hshift (i : Nat) : bytes.length - 1 - i = bytes.length + 1 - 1 - (i + 1) := by omega
      rw [tagNumber_cons, ih]
      simp only [hshift]
      exact (Fin.sum_univ_succ fun i : Fin (bytes.length + 1) =>
        (((b :: bytes)[i].toNat : Int) * 223 ^ (bytes.length + 1 - 1 - i))).symm

/-! ## words that wrap around -/

/-- The balanced remainder differs from the number by a multiple of the modulus. -/
theorem bmod_modEq (x : Int) (m : Nat) : x.bmod m ≡ x [ZMOD m] := Int.bmod_emod

/-- A byte as a signed word has the value of the byte. -/
theorem toInt_byte (b : UInt8) : b.toUInt64.toInt64.toInt = b.toNat := by
  have hlt : b.toNat < 256 := b.toNat_lt
  rw [← Int64.toInt_toBitVec, BitVec.toInt_eq_toNat_bmod]
  show (b.toUInt64.toNat : Int).bmod (2 ^ 64) = b.toNat
  rw [UInt8.toNat_toUInt64]
  exact Int.bmod_eq_of_le (by omega) (by omega)

/-- One more byte: the word wraps around, and stays the same up to a multiple of `2 ^ 64`. -/
theorem toInt_step_modEq (w : Int64) (b : UInt8) :
    (w * 223 + b.toUInt64.toInt64).toInt ≡ addDigit w.toInt b [ZMOD (2 ^ 64 : Nat)] := by
  have hbase : (223 : Int64).toInt = 223 := rfl
  rw [Int64.toInt_add, Int64.toInt_mul, hbase, toInt_byte]
  exact (bmod_modEq _ _).trans ((bmod_modEq _ _).add_right _)

/-- Each step may wrap around, which changes the word by a multiple of `2 ^ 64` only. -/
theorem toInt_foldl_modEq (bytes : List UInt8) {w : Int64} {n : Int}
    (h : w.toInt ≡ n [ZMOD (2 ^ 64 : Nat)]) :
    (bytes.foldl (fun acc byte => acc * 223 + byte.toUInt64.toInt64) w).toInt ≡
      bytes.foldl addDigit n [ZMOD (2 ^ 64 : Nat)] := by
  induction bytes generalizing w n with
  | nil => exact h
  | cons b bytes ih =>
      exact ih ((toInt_step_modEq w b).trans ((h.mul_right 223).add_right _))

/-- The word that the hash is cut from is the number of the tag up to a multiple of `2 ^ 64`. -/
theorem toInt_tagWord_modEq (tag : String) :
    (tagWord tag).toInt ≡ tagNumber tag.toUTF8.data.toList [ZMOD (2 ^ 64 : Nat)] :=
  toInt_foldl_modEq _ (Int.ModEq.refl 0)

/-! ## low bits and sign -/

/-- The low 31 bits of a word, also of a negative one, are its remainder. -/
theorem toInt_low (w : Int64) : (w &&& 0x7fffffff).toInt = w.toInt % 2 ^ 31 := by
  have hmask : (0x7fffffff : Int64).toBitVec.toNat = 2 ^ 31 - 1 := by decide
  have hword : w.toInt % 2 ^ 31 = (w.toBitVec.toNat : Int) % 2 ^ 31 := by
    have hmod := bmod_modEq w.toBitVec.toNat (2 ^ 64)
    rw [← BitVec.toInt_eq_toNat_bmod, Int64.toInt_toBitVec] at hmod
    exact hmod.of_dvd (pow_dvd_pow 2 (by decide))
  rw [hword, ← Int64.toInt_toBitVec, Int64.toBitVec_and, BitVec.toInt_and, hmask,
    Nat.and_two_pow_sub_one_eq_mod]
  exact Int.bmod_eq_of_le (by omega) (by omega)

/-- Taking 31 bits of the word and giving them a sign is one balanced remainder. -/
theorem tagHash_eq_bmod_tagWord (tag : String) : tagHash tag =
    (tagWord tag).toInt.bmod (2 ^ 31) := by
  have hlow := toInt_low (tagWord tag)
  have hbound : (0x3fffffff : Int64).toInt = 0x3fffffff := rfl
  have hmodulus : (0x80000000 : Int64).toInt = 0x80000000 := rfl
  rw [tagHash, Int.bmod_def]
  by_cases hsign : tagWord tag &&& 0x7fffffff > 0x3fffffff
  · have hlarge := Int64.lt_iff_toInt_lt.1 hsign
    rw [hlow, hbound] at hlarge
    rw [if_pos hsign, if_neg (by omega), Int64.toInt_sub, hlow, hmodulus]
    exact Int.bmod_eq_of_le (by omega) (by omega)
  · have hsmall := mt Int64.lt_iff_toInt_lt.2 hsign
    rw [hlow, hbound] at hsmall
    rw [if_neg hsign, if_pos (by omega), hlow]
    rfl

/-- The hash is the balanced remainder of the number that the bytes write. -/
theorem tagHash_eq_bmod (tag : String) :
    tagHash tag = (tagNumber tag.toUTF8.data.toList).bmod (2 ^ 31) := by
  have hdvd : 2 ^ 31 ∣ 2 ^ 64 := pow_dvd_pow 2 (by decide)
  have hword := toInt_tagWord_modEq tag
  rw [tagHash_eq_bmod_tagWord, ← Int.emod_bmod, ← Int.emod_bmod (tagNumber _)]
  exact congrArg (Int.bmod · _) (hword.of_dvd (Int.natCast_dvd_natCast.2 hdvd))

/-- The hash is the number of the tag up to a multiple of `2 ^ 31`. -/
theorem tagHash_modEq (tag : String) :
    tagHash tag ≡ tagNumber tag.toUTF8.data.toList [ZMOD 2 ^ 31] := by
  rw [tagHash_eq_bmod]
  exact bmod_modEq _ _

/-- The hash of a tag is the one integer between `-2 ^ 30` and `2 ^ 30` (the bound above left out)
that is congruent modulo `2 ^ 31` to the number that the bytes of the tag write to the base 223. So
the hash of a tag made of two is determined by their hashes and the length of the second. -/
theorem tagHash_is_exact :
    (∀ (tag : String) (h : Int), h = tagHash tag ↔ -2 ^ 30 ≤ h ∧ h < 2 ^ 30 ∧
      h ≡ ∑ i : Fin tag.toUTF8.data.toList.length, (tag.toUTF8.data.toList[i].toNat : Int) *
        223 ^ (tag.toUTF8.data.toList.length - 1 - i) [ZMOD 2 ^ 31]) ∧
    ∀ s t : String,
      tagHash (s ++ t) ≡ tagHash s * 223 ^ t.utf8ByteSize + tagHash t [ZMOD 2 ^ 31] := by
  constructor
  · intro tag h
    rw [← tagNumber_eq_sum, tagHash_eq_bmod, eq_comm, Int.bmod_eq_iff (by decide),
      ← Int.modEq_iff_dvd, Int.modEq_comm]
    rfl
  · intro s t
    have hbytes : (s ++ t).toUTF8.data.toList = s.toUTF8.data.toList ++ t.toUTF8.data.toList := by
      rw [String.toUTF8_eq_toByteArray, String.toByteArray_append, ByteArray.data_append,
        Array.toList_append]
      rfl
    have hlength : t.toUTF8.data.toList.length = t.utf8ByteSize := rfl
    calc tagHash (s ++ t)
        ≡ tagNumber s.toUTF8.data.toList * 223 ^ t.utf8ByteSize + tagNumber t.toUTF8.data.toList
            [ZMOD 2 ^ 31] := by
          rw [← hlength, ← tagNumber_append, ← hbytes]
          exact tagHash_modEq (s ++ t)
      _ ≡ tagHash s * 223 ^ t.utf8ByteSize + tagHash t [ZMOD 2 ^ 31] :=
          ((tagHash_modEq s).symm.mul_right _).add (tagHash_modEq t).symm

example : tagHash "show" = -866986755 := by cbv

end DeriveKit
