import DeriveKit.Argument.Decoder
import DeriveKit.Proofs.ArgumentShape
import Mathlib.Data.Nat.Digits.Defs
import Mathlib.Tactic.Ring

/-!
# DeriveKit.Proofs.IntegerLiteral

Integer arguments are read exactly: a literal has a value if it is written by the rules for literals
and the value fits into 64 bits, and is refused otherwise.

* `Denotes` — the rules for literals, with the value as `Nat.ofDigits` has it;
* `readDigits_eq_some_iff` — what the loop over the digits has read;
* `numeral_iff` — the mark of the base, which `splitMark` cuts off by counting bytes;
* `readInteger_eq` — the sign: although `readSigned` takes signs of its own, `readInteger` reads
  digits without any and gives them the sign of the literal;
* `readInteger_eq_some_iff`, `readInteger_toString`, `Loosened.readInteger_eq` — whole literals;
* `Decoder.integers_are_read_exactly` — the result.
-/

namespace DeriveKit

/-! ## the rules for literals -/

/-- The digits in the order of their values. -/
def hexDigits : List Char :=
  ['0', '1', '2', '3', '4', '5', '6', '7', '8', '9', 'a', 'b', 'c', 'd', 'e', 'f']

/-- The value of a character as a digit, the letters in either case; 16 if it is no digit at all. -/
def digitOf (c : Char) : Nat := hexDigits.idxOf c.toLower

/-- Digits to a base, of which there is at least one. -/
structure IsDigits (base : Nat) (ds : List Char) : Prop where
  ne_nil : ds ≠ []
  digitOf_lt : ∀ d ∈ ds, digitOf d < base

/-- The number that digits write to a base, the first of them most significant. -/
def digitsValue (base : Nat) (ds : List Char) : Nat := Nat.ofDigits base (ds.map digitOf).reverse

/-- The marks of the bases other than ten. -/
def baseMarks : List (Char × Nat) := [('x', 16), ('X', 16), ('o', 8), ('O', 8), ('b', 2), ('B', 2)]

/-- A numeral and its value: digits to the base ten, or to the base with the mark after a zero. -/
inductive Numeral : List Char → Nat → Prop
  | decimal {ds : List Char} (h : IsDigits 10 ds) : Numeral ds (digitsValue 10 ds)
  | marked {mark : Char} {base : Nat} {ds : List Char} (hmark : (mark, base) ∈ baseMarks)
      (h : IsDigits base ds) : Numeral ('0' :: mark :: ds) (digitsValue base ds)

/-- Whether a literal has a minus sign in front. -/
def isNegative (literal : List Char) : Bool := literal.head? == some '-'

/-- A literal without the minus sign in front of it and without low lines. -/
def bareDigits (literal : List Char) : List Char :=
  (if isNegative literal then literal.tail else literal).filter (· ≠ '_')

/-- A literal denotes an integer if a numeral is left without its sign and its low lines, and the
integer is the value of the numeral with that sign and fits into 64 bits. -/
def Denotes (literal : List Char) (v : Int) : Prop :=
  ∃ n : Nat, Numeral (bareDigits literal) n ∧ v = (if isNegative literal then -(n : Int) else n) ∧
    -2 ^ 63 ≤ v ∧ v ≤ 2 ^ 63 - 1

/-- A literal has a value of 64 bits or none. -/
theorem Denotes.fits {literal : List Char} {v : Int} (h : Denotes literal v) :
    -2 ^ 63 ≤ v ∧ v ≤ 2 ^ 63 - 1 := by
  obtain ⟨n, -, -, hfits⟩ := h
  exact hfits

/-! ## digits -/

/-- Characters beyond ASCII are no digits in any base. -/
theorem digitOf_of_not_ascii {c : Char} (h : 128 ≤ c.toNat) : digitOf c = 16 := by
  have hlower : c.toLower = c := dif_neg fun hupper => by
    have hle : c.toNat ≤ 90 := hupper.2
    omega
  have hascii : ∀ d ∈ hexDigits, d.toNat < 128 := by simp [hexDigits]
  rw [digitOf, hlower]
  refine List.idxOf_eq_length fun hmem => ?_
  have hlt := hascii c hmem
  omega

/-- The reader takes no character beyond ASCII for a digit. -/
theorem digitValue?_of_not_ascii {c : Char} (h : 128 ≤ c.toNat) : digitValue? c = none := by
  have hle : ∀ d : Char, d.toNat < 128 → ¬ c ≤ d := fun d hd hcd => by
    have hcd : c.toNat ≤ d.toNat := hcd
    omega
  rw [digitValue?, if_neg fun hc => hle '9' (by decide) hc.2, if_neg fun hc =>
    hle 'z' (by decide) hc.2, if_neg fun hc => hle 'Z' (by decide) hc.2]

/-- Both say the same about digits. -/
theorem digitValue?_eq_some_iff {c : Char} {d : Nat} (hd : d < 16) :
    digitValue? c = some d ↔ digitOf c = d := by
  by_cases hc : c.toNat < 128
  · have hascii : ∀ n < 128, ∀ d < 16,
        digitValue? (.ofNat n) = some d ↔ digitOf (.ofNat n) = d := by
      decide +kernel
    simpa using hascii c.toNat hc d hd
  · have hc : 128 ≤ c.toNat := by omega
    rw [digitValue?_of_not_ascii hc, digitOf_of_not_ascii hc]
    exact ⟨nofun, fun h => by omega⟩

/-- One digit makes the number before it the base times as large. -/
theorem readDigits_cons {base : Nat} (hbase : base ≤ 16) (acc : Nat) (c : Char) (cs : List Char) :
    readDigits base acc (c :: cs) =
      if digitOf c < base then readDigits base (base * acc + digitOf c) cs else none := by
  rw [readDigits]
  by_cases hc : digitOf c < base
  · simp [(digitValue?_eq_some_iff (Nat.lt_of_lt_of_le hc hbase)).2 rfl, hc]
  · cases hvalue : digitValue? c with
    | none => simp [hc]
    | some d =>
        have hd : ¬ d < base := fun hd =>
          hc ((digitValue?_eq_some_iff (Nat.lt_of_lt_of_le hd hbase)).1 hvalue ▸ hd)
        simp [hc, hd]

/-- The first digit counts most. -/
theorem digitsValue_cons (base : Nat) (d : Char) (ds : List Char) :
    digitsValue base (d :: ds) = digitOf d * base ^ ds.length + digitsValue base ds := by
  rw [digitsValue, List.map_cons, Nat.ofDigits_reverse_cons, List.length_map, digitsValue]
  ring

/-- What the loop has read: a number before the digits counts as often as their base to the power of
their number. -/
theorem readDigits_eq_some_iff {base : Nat} (hbase : base ≤ 16) {acc n : Nat} {cs : List Char} :
    readDigits base acc cs = some n ↔
      (∀ c ∈ cs, digitOf c < base) ∧ n = acc * base ^ cs.length + digitsValue base cs := by
  induction cs generalizing acc with
  | nil => simp [readDigits, digitsValue, eq_comm]
  | cons c cs ih =>
      have hvalue : (base * acc + digitOf c) * base ^ cs.length + digitsValue base cs =
          acc * base ^ (c :: cs).length + digitsValue base (c :: cs) := by
        rw [digitsValue_cons, List.length_cons]
        ring
      rw [readDigits_cons hbase, List.forall_mem_cons]
      by_cases hc : digitOf c < base
      · rw [if_pos hc, ih, hvalue]
        simp [hc]
      · simp [hc]

/-- Digits are read as the number that they write (`digitsValue`), and nothing else is read. -/
theorem readNatural_eq_some_iff {base : Nat} (hbase : base ≤ 16) {cs : List Char} {n : Nat} :
    readNatural base cs = some n ↔ IsDigits base cs ∧ n = digitsValue base cs := by
  cases cs with
  | nil => exact ⟨nofun, fun h => absurd rfl h.1.ne_nil⟩
  | cons c cs =>
      rw [readNatural, readDigits_eq_some_iff hbase, zero_mul, zero_add]
      exact and_congr_left' ⟨fun h => ⟨List.cons_ne_nil _ _, h⟩, IsDigits.digitOf_lt⟩

/-! ## literals -/

/-- No mark stands for a base larger than sixteen. -/
theorem baseMarks_le {mark : Char} {base : Nat} (h : (mark, base) ∈ baseMarks) : base ≤ 16 := by
  simp [baseMarks] at h
  omega

/-- A mark is no decimal digit, so a numeral with a mark can be read in one way only. -/
theorem numeral_marked_iff {mark : Char} {base : Nat} (h : (mark, base) ∈ baseMarks)
    {ds : List Char} {n : Nat} :
    Numeral ('0' :: mark :: ds) n ↔ IsDigits base ds ∧ n = digitsValue base ds := by
  constructor
  · intro hn
    cases hn with
    | decimal hds =>
        have hmark := hds.digitOf_lt mark (by simp)
        have hnone : ∀ m ∈ baseMarks, ¬ digitOf m.1 < 10 := by decide
        exact absurd hmark (hnone _ h)
    | marked hmark hds =>
        have hunique : ∀ m ∈ baseMarks, ∀ m' ∈ baseMarks, m.1 = m'.1 → m.2 = m'.2 := by decide
        obtain rfl := hunique _ h _ hmark rfl
        exact ⟨hds, rfl⟩
  · rintro ⟨hds, rfl⟩
    exact .marked h hds

/-! ### the mark -/

/-- What is cut off and what is left make up the text. -/
theorem eq_append_of_cutBytes? {n : Nat} {text front back : List Char}
    (h : cutBytes? n text = some (front, back)) : text = front ++ back := by
  induction text generalizing n front with
  | nil =>
      cases n with
      | zero => cases h; rfl
      | succ n => cases h
  | cons c text ih =>
      cases n with
      | zero => cases h; rfl
      | succ n =>
          rw [cutBytes?] at h
          split at h
          · obtain ⟨⟨front', back'⟩, hcut, hparts⟩ := Option.map_eq_some_iff.1 h
            cases hparts
            rw [ih hcut, List.cons_append]
          · cases h

/-- Two characters of one byte each are what a cut after two bytes takes. -/
theorem cutBytes?_two {c d : Char} (hc : c.utf8Size = 1) (hd : d.utf8Size = 1) (rest : List Char) :
    cutBytes? 2 (c :: d :: rest) = some ([c, d], rest) := by
  simp [cutBytes?, hc, hd]

/-- A mark is two characters of one byte each, so the cut falls after it. -/
theorem splitMark_marked {mark : Char} {base : Nat} (h : (mark, base) ∈ baseMarks)
    (ds : List Char) : splitMark ('0' :: mark :: ds) = (base, ds) := by
  simp only [baseMarks, List.mem_cons, List.not_mem_nil, or_false, Prod.mk.injEq] at h
  obtain ⟨rfl, rfl⟩ | ⟨rfl, rfl⟩ | ⟨rfl, rfl⟩ | ⟨rfl, rfl⟩ | ⟨rfl, rfl⟩ | ⟨rfl, rfl⟩ := h
  all_goals
    rw [splitMark, cutBytes?_two (by decide) (by decide)]
    rfl

/-- A text begins with a mark, or all of it is to be read to the base ten. -/
theorem splitMark_cases (text : List Char) :
    (∃ mark base ds, (mark, base) ∈ baseMarks ∧ text = '0' :: mark :: ds) ∨
    (∀ mark base ds, (mark, base) ∈ baseMarks → text ≠ '0' :: mark :: ds) ∧
      splitMark text = (10, text) := by
  by_cases h : ∃ mark base ds, (mark, base) ∈ baseMarks ∧ text = '0' :: mark :: ds
  · exact .inl h
  · refine .inr ⟨fun mark base ds hmark htext => h ⟨mark, base, ds, hmark, htext⟩, ?_⟩
    unfold splitMark
    split
    case h_7 => rfl
    all_goals
      next hcut => exact absurd (by simp [baseMarks, eq_append_of_cutBytes? hcut]) h

/-- Nor is the base larger than sixteen if there is no mark. -/
theorem splitMark_le (text : List Char) : (splitMark text).1 ≤ 16 := by
  obtain ⟨mark, base, ds, hmark, rfl⟩ | ⟨-, hten⟩ := splitMark_cases text
  · rw [splitMark_marked hmark]
    exact baseMarks_le hmark
  · rw [hten]
    show 10 ≤ 16
    decide

/-- A text is a numeral if digits to the base that its mark says are left after the mark. -/
theorem numeral_iff {text : List Char} {n : Nat} :
    Numeral text n ↔ IsDigits (splitMark text).1 (splitMark text).2 ∧
      n = digitsValue (splitMark text).1 (splitMark text).2 := by
  obtain ⟨mark, base, ds, hmark, rfl⟩ | ⟨hnone, hten⟩ := splitMark_cases text
  · rw [splitMark_marked hmark]
    exact numeral_marked_iff hmark
  · rw [hten]
    constructor
    · intro h
      cases h with
      | decimal h => exact ⟨h, rfl⟩
      | marked hmark => exact absurd rfl (hnone _ _ _ hmark)
    · rintro ⟨h, rfl⟩
      exact .decimal h

/-! ### the sign -/

/-- A number is kept if 64 bits suffice for it. -/
theorem fit64_eq_some_iff {n v : Int} :
    fit64 n = some v ↔ v = n ∧ -2 ^ 63 ≤ v ∧ v ≤ 2 ^ 63 - 1 := by
  rw [fit64]
  split <;> simp <;> omega

/-- The sign of a literal is cut off before anything else is looked at. -/
theorem splitMinus_eq (literal : List Char) :
    splitMinus literal =
      (isNegative literal, if isNegative literal then literal.tail else literal) := by
  unfold splitMinus
  split
  · rfl
  · next hsign =>
    have hpositive : isNegative literal = false := by
      cases literal with
      | nil => rfl
      | cons c cs => simpa [isNegative] using fun hc : c = '-' => hsign cs (hc ▸ rfl)
    rw [hpositive]
    rfl

/-- A sign is no digit. -/
theorem readNatural_of_isSigned {base : Nat} {text : List Char} (h : isSigned text = true) :
    readNatural base text = none := by
  unfold isSigned at h
  split at h
  · rfl
  · rfl
  · cases h

/-- Without a sign of their own, digits are read as they are. -/
theorem readSigned_of_not_isSigned (base : Nat) {text : List Char} (h : isSigned text = false) :
    readSigned base text = (readNatural base text).bind fun n => fit64 n := by
  unfold readSigned
  split
  · cases h
  · cases h
  · rfl

/-- **One sign.** Digits are read without a sign and get that of the literal: a second sign, of
either kind and on either side of the mark, is not let through. -/
theorem readInteger_eq (literal : List Char) :
    readInteger literal =
      (readNatural (splitMark (bareDigits literal)).1
        (splitMark (bareDigits literal)).2).bind fun n =>
        fit64 (if isNegative literal then -(n : Int) else n) := by
  have hread : readInteger literal =
      if isSigned (splitMark (bareDigits literal)).2 then none
      else readSigned (splitMark (bareDigits literal)).1
        (if isNegative literal then '-' :: (splitMark (bareDigits literal)).2
          else (splitMark (bareDigits literal)).2) := by
    rw [readInteger, splitMinus_eq]
    rfl
  rw [hread]
  cases hsign : isSigned (splitMark (bareDigits literal)).2 with
  | true => rw [readNatural_of_isSigned hsign]; rfl
  | false =>
      cases isNegative literal with
      | true => rfl
      | false => exact readSigned_of_not_isSigned _ hsign

/-- **Literals**: the value read is what the literal denotes. -/
theorem readInteger_eq_some_iff {literal : List Char} {v : Int} :
    readInteger literal = some v ↔ Denotes literal v := by
  simp only [readInteger_eq, Option.bind_eq_some_iff, readNatural_eq_some_iff (splitMark_le _),
    ← numeral_iff, fit64_eq_some_iff, Denotes]

/-- A literal with a numeral in it has its value, if that fits. -/
theorem readInteger_of_numeral {literal : List Char} {n : Nat}
    (h : Numeral (bareDigits literal) n) :
    readInteger literal = fit64 (if isNegative literal then -(n : Int) else n) := by
  rw [readInteger_eq, (readNatural_eq_some_iff (splitMark_le _)).2 (numeral_iff.1 h),
    Option.bind_some]

/-! ## decimal notation -/

/-- Decimal digits are read as the library reads them (`Nat.ofDigitChars`). -/
theorem readDigits_of_isDigit {cs : List Char} (h : ∀ c ∈ cs, c.isDigit) (acc : Nat) :
    readDigits 10 acc cs = some (Nat.ofDigitChars 10 cs acc) := by
  induction cs generalizing acc with
  | nil => rfl
  | cons c cs ih =>
      obtain ⟨hc, hcs⟩ := List.forall_mem_cons.1 h
      have hrange : '0' ≤ c ∧ c ≤ '9' := Char.isDigit_iff_toNat.1 hc
      have hle : c.toNat ≤ 57 := hrange.2
      have hsmall : c.toNat - 48 < 10 := by omega
      simp [readDigits, digitValue?, hrange, hsmall, ih hcs, Nat.ofDigitChars_cons]

/-- The decimal writing of a number is a numeral of it. -/
theorem numeral_toDigits (n : Nat) : Numeral (Nat.toDigits 10 n) n := by
  have hdigits : ∀ c ∈ Nat.toDigits 10 n, c.isDigit := fun c =>
    Nat.isDigit_of_mem_toDigits (by decide) (by decide)
  have hread : readDigits 10 0 (Nat.toDigits 10 n) = some n := by
    rw [readDigits_of_isDigit hdigits, Nat.ofDigitChars_ten_toDigits]
  obtain ⟨hlt, hvalue⟩ := (readDigits_eq_some_iff (by decide)).1 hread
  rw [zero_mul, zero_add] at hvalue
  have hnumeral := Numeral.decimal ⟨Nat.toDigits_ne_nil, hlt⟩
  rwa [← hvalue] at hnumeral

/-- The decimal writing of a number has no separators. -/
theorem filter_toDigits (n : Nat) : (Nat.toDigits 10 n).filter (· ≠ '_') = Nat.toDigits 10 n := by
  rw [List.filter_eq_self]
  rintro c hc
  simpa using fun h : c = '_' => Nat.underscore_not_in_toDigits (h ▸ hc)

/-- An integer in decimal notation is read back if it fits into 64 bits. -/
theorem readInteger_toString (v : Int) : readInteger (toString v).toList = fit64 v := by
  cases v with
  | negSucc n =>
      have hliteral : (toString (Int.negSucc n)).toList = '-' :: Nat.toDigits 10 (n + 1) := by
        show ("-" ++ (n + 1).repr).toList = _
        simp
      have hbare : bareDigits ('-' :: Nat.toDigits 10 (n + 1)) = Nat.toDigits 10 (n + 1) :=
        filter_toDigits (n + 1)
      rw [hliteral, readInteger_of_numeral (by rw [hbare]; exact numeral_toDigits (n + 1))]
      exact congrArg fit64 (Int.negSucc_eq n).symm
  | ofNat n =>
      have hliteral : (toString (Int.ofNat n)).toList = Nat.toDigits 10 n := Nat.toList_repr
      have hpositive : isNegative (Nat.toDigits 10 n) = false := by
        cases hdigits : Nat.toDigits 10 n with
        | nil => rfl
        | cons c cs =>
            have hc : c.isDigit := Nat.isDigit_of_mem_toDigits (by decide) (by decide)
              (hdigits ▸ List.mem_cons_self)
            simpa [isNegative] using fun h : c = '-' => absurd hc (by rw [h]; decide)
      have hbare : bareDigits (Nat.toDigits 10 n) = Nat.toDigits 10 n := by
        rw [bareDigits, hpositive]
        exact filter_toDigits n
      rw [hliteral, readInteger_of_numeral (by rw [hbare]; exact numeral_toDigits n), hpositive]
      rfl

/-! ## low lines -/

/-- The second text is the first one with low lines put in anywhere. -/
inductive Loosened : List Char → List Char → Prop
  | nil : Loosened [] []
  | keep (c : Char) {tight loose : List Char} (h : Loosened tight loose) :
      Loosened (c :: tight) (c :: loose)
  | insert {tight loose : List Char} (h : Loosened tight loose) : Loosened tight ('_' :: loose)

variable {tight loose : List Char}

/-- Separators are all that a looser writing adds. -/
theorem Loosened.filter_eq (h : Loosened tight loose) :
    loose.filter (· ≠ '_') = tight.filter (· ≠ '_') := by
  induction h with
  | nil => rfl
  | keep c h ih => rw [List.filter_cons, List.filter_cons, ih]
  | insert h ih => exact ih

/-- It does not begin with a sign if the tighter one does not. -/
theorem Loosened.isNegative_eq (h : Loosened tight loose) (htight : isNegative tight = false) :
    isNegative loose = false := by
  cases h with
  | nil | keep => exact htight
  | insert => rfl

/-- What counts in a literal is its sign and what is left without it and without low lines. -/
theorem readInteger_congr {literal literal' : List Char}
    (hsign : isNegative literal = isNegative literal')
    (hbare : bareDigits literal = bareDigits literal') :
    readInteger literal = readInteger literal' := by
  rw [readInteger_eq, readInteger_eq, hsign, hbare]

/-- Low lines make no difference in a literal without a sign. -/
theorem Loosened.readInteger_eq (h : Loosened tight loose) (htight : isNegative tight = false) :
    readInteger loose = readInteger tight := by
  have hloose := h.isNegative_eq htight
  refine readInteger_congr (hloose.trans htight.symm) ?_
  rw [bareDigits, bareDigits, hloose, htight]
  exact h.filter_eq

/-- Low lines after the sign make no difference. -/
theorem Loosened.readInteger_minus (h : Loosened tight loose) :
    readInteger ('-' :: loose) = readInteger ('-' :: tight) :=
  readInteger_congr rfl h.filter_eq

/-! ## integers as arguments -/

namespace Decoder

variable {π : Type} {e : Expr π} {t : String}

/-- The decoder reads the text of the literal. -/
theorem int_eq (h : e.shape = .constant (.integer t none)) :
    int e = ((readInteger t.toList).map Except.ok).getD (.error "integer") := by
  cases hread : readInteger t.toList <;> simp [int, Expr.asArgument_eq_int_iff.2 h, hread]

/-- What is not a literal that denotes an integer is refused. -/
theorem int_cases (e : Expr π) :
    (∃ t v, e.shape = .constant (.integer t none) ∧ Denotes t.toList v ∧ int e = .ok v) ∨
    (¬ ∃ t v, e.shape = .constant (.integer t none) ∧ Denotes t.toList v) ∧
      int e = .error "integer" := by
  by_cases hshape : ∃ t, e.shape = .constant (.integer t none)
  · obtain ⟨t, ht⟩ := hshape
    rw [int_eq ht]
    simp only [ht, ← readInteger_eq_some_iff]
    cases hread : readInteger t.toList <;> simp [hread]
  · refine .inr ⟨fun ⟨t, v, ht, _⟩ => hshape ⟨t, ht⟩, ?_⟩
    rw [int]
    split
    · exact absurd ⟨_, Expr.asArgument_eq_int_iff.1 ‹_›⟩ hshape
    · rfl

/-- An integer of 64 bits is read back from its decimal notation. -/
theorem int_int {v : Int} (hlow : -2 ^ 63 ≤ v) (hhigh : v ≤ 2 ^ 63 - 1) (span : Span) :
    int (.int v span : Expr π) = .ok v := by
  have hfits : fit64 v = some v := fit64_eq_some_iff.2 ⟨rfl, hlow, hhigh⟩
  rw [int_eq rfl, readInteger_toString, hfits]
  rfl

/-- **Integers are read exactly.** A literal without a suffix gives the integer that it denotes, and
the complaint about a missing integer if it denotes none. So every integer of 64 bits is read back
from its decimal notation, and low lines after the sign of a literal make no difference. -/
theorem integers_are_read_exactly :
    (∀ (e : Expr π) (t : String), e.shape = .constant (.integer t none) →
      (∀ v, int e = .ok v ↔ Denotes t.toList v) ∧
      (int e = .error "integer" ↔ ¬ ∃ v, Denotes t.toList v)) ∧
    (∀ (v : Int64) (span : Span), int (.int v.toInt span : Expr π) = .ok v.toInt) ∧
    ∀ (tight loose : List Char) (span : Span), Loosened tight loose →
      let literal (t : List Char) : Expr π := ⟨.constant (.integer (.ofList t) none), span, []⟩
      int (literal ('-' :: loose)) = int (literal ('-' :: tight)) ∧
      (isNegative tight = false → int (literal loose) = int (literal tight)) := by
  refine ⟨fun e t h => ?_, fun v span => ?_, fun tight loose span h => ⟨?_, fun htight => ?_⟩⟩
  · simp only [← readInteger_eq_some_iff]
    rw [int_eq h]
    cases readInteger t.toList <;> simp
  · have hhigh := v.toInt_lt
    exact int_int v.le_toInt (by omega) span
  · rw [int_eq rfl, int_eq rfl, String.toList_ofList, String.toList_ofList, h.readInteger_minus]
  · rw [int_eq rfl, int_eq rfl, String.toList_ofList, String.toList_ofList, h.readInteger_eq htight]

/-- The least integer, written to the base sixteen, the number above the greatest one, a second sign
after the mark of a base, and low lines before the mark. -/
theorem integers_are_read_exactly_least :
    let literal (t : String) : Expr Payload := ⟨.constant (.integer t none), .generated, []⟩
    let least := "-0x8000_0000_0000_0000"
    let above := "9223372036854775808"
    let twice := "-0x+1"
    (Denotes least.toList (-2 ^ 63) ∧ int (literal least) = .ok (-2 ^ 63)) ∧
    ((¬ ∃ v, Denotes above.toList v) ∧ int (literal above) = .error "integer") ∧
    ((¬ ∃ v, Denotes twice.toList v) ∧ int (literal twice) = .error "integer") ∧
    int (literal (.ofList ['-', '_', '0', '_', 'b', '1'])) =
      int (literal (.ofList ['-', '0', 'b', '1'])) ∧
    int (literal (.ofList ['_', '0', '_', 'b', '1'])) =
      int (literal (.ofList ['0', 'b', '1'])) := by
  intro literal least above twice
  obtain ⟨hexact, -, hloose⟩ := @integers_are_read_exactly Payload
  obtain ⟨hleast, -⟩ := hexact (literal least) least rfl
  have hread : Denotes least.toList (-2 ^ 63) := readInteger_eq_some_iff.1 (by decide)
  have hrefused {t : String} (h : readInteger t.toList = none) :
      (¬ ∃ v, Denotes t.toList v) ∧ int (literal t) = .error "integer" := by
    have hnone : ¬ ∃ v, Denotes t.toList v := by
      rintro ⟨v, hv⟩
      exact absurd (h.symm.trans (readInteger_eq_some_iff.2 hv)) nofun
    exact ⟨hnone, (hexact (literal t) t rfl).2.2 hnone⟩
  have hloosened : Loosened ['0', 'b', '1'] ['_', '0', '_', 'b', '1'] :=
    .insert (.keep '0' (.insert (.keep 'b' (.keep '1' .nil))))
  obtain ⟨hminus, hplus⟩ := hloose _ _ .generated hloosened
  exact ⟨⟨hread, (hleast _).2 hread⟩, hrefused (by decide), hrefused (by decide), hminus, hplus rfl⟩

end Decoder

end DeriveKit
