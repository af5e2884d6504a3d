import DeriveKit.Proofs.ReadName
import Mathlib.Data.List.Infix
import Mathlib.Tactic.SplitIfs

/-!
# DeriveKit.Proofs.ReadLiteral

Literals can be read back. Numbers, characters and strings have readers of their own (`readNumber`,
`readCharacter`, `readString`, `readDelimited`), and what follows a literal decides where a number
ends.

* `Constant.reads`, `Constant.reads_negative` — what is read, for negative numbers apart;
* `Constant.noOpening` — a literal is not read as a name;
* `vacant_of_sign`, `vacant_of_keyword` — where neither is.
-/

namespace DeriveKit

/-! ### numerals -/

/-- The characters that numerals are made of. -/
def isNumberPart (c : Char) : Bool := c.isAlphanum || c == '_' || c == '.' || c == '+' || c == '-'

/-- The letters that may stand after a numeral. The others are digits or begin an exponent. -/
def isSuffix (c : Char) : Bool := ('g' ≤ c && c ≤ 'z') || ('G' ≤ c && c ≤ 'Z')

/-- A numeral without its sign. -/
def unsigned : List Char → List Char
  | '-' :: cs => cs
  | cs => cs

/-- Whether the text begins as a numeral without a sign does. -/
def startsDigit (cs : List Char) : Bool := cs.head?.any Char.isDigit

/-- The letters that begin the exponent of a numeral. -/
def exponentLetters : List Char → List Char
  | '0' :: 'x' :: _ | '0' :: 'X' :: _ => ['p', 'P']
  | _ => ['e', 'E']

/-- Whether a numeral is that of a fraction: it has a decimal point or an exponent. -/
def isFractional (cs : List Char) : Bool :=
  cs.any fun c => c == '.' || (exponentLetters (unsigned cs)).contains c

/-- Whether the text is a numeral without a suffix. What it is made of beyond that is of no account
for telling texts apart. -/
def isNumeral (s : String) : Bool :=
  startsDigit (unsigned s.toList) && s.toList.all isNumberPart &&
    !s.toList.getLast?.any isSuffix

/-- The constant with the given numeral. -/
def Constant.ofNumeral (cs : List Char) (suffix : Option Char) : Constant :=
  if isFractional cs then .float (String.ofList cs) suffix
  else .integer (String.ofList cs) suffix

/-- The constant with the given numeral, of which the last letter may be a suffix. -/
def Constant.ofNumber (cs : List Char) : Constant :=
  match cs.getLast?.filter isSuffix with
  | some c => ofNumeral cs.dropLast (some c)
  | none => ofNumeral cs none

/-- Reads a number, also a negative one. -/
def readNumber : Reader Constant := fun cs =>
  if startsDigit (unsigned cs) then
    some (.ofNumber (cs.takeWhile isNumberPart), cs.dropWhile isNumberPart)
  else none

/-- Whether the constant is a number. -/
def Constant.isNumber : Constant → Bool
  | .integer _ _ | .float _ _ => true
  | .char _ | .string _ _ => false

/-! ### characters and strings -/

/-- The number that three decimal digits stand for. -/
def ofDigits (c d e : Char) : Nat :=
  100 * (c.toNat - '0'.toNat) + 10 * (d.toNat - '0'.toNat) + (e.toNat - '0'.toNat)

/-- Reads what stands after a backslash. -/
def readEscape : Reader Char
  | 'n' :: cs => some ('\n', cs)
  | 't' :: cs => some ('\t', cs)
  | 'r' :: cs => some ('\r', cs)
  | c :: cs =>
      if c.isDigit then
        match cs with
        | d :: e :: cs => some (.ofNat (ofDigits c d e), cs)
        | _ => none
      else some (c, cs)
  | [] => none

/-- Reads a character between two `quote` characters. -/
def readChar (quote : Char) : Reader Char
  | [] => none
  | c :: cs => if c = '\\' then readEscape cs else if c = quote then none else some (c, cs)

/-- Reads a text and the `quote` characters around it. -/
def readQuoted (quote : Char) : Reader String := fun cs => do
  let rest ← dropLead [quote] cs
  let (text, rest) := many (readChar quote) rest
  let rest ← dropLead [quote] rest
  some (String.ofList text, rest)

/-- Reads up to the given text. -/
def readUntil (stop : List Char) : Reader (List Char) := fun cs =>
  match dropLead stop cs, cs with
  | some rest, _ => some ([], rest)
  | none, [] => none
  | none, c :: cs => (readUntil stop cs).map fun r => (c :: r.1, r.2)

/-- What ends a string in the quoted form. -/
def terminator (delimiter : String) : String := "|" ++ delimiter ++ "\x7d"

/-- Reads a string in the quoted form. -/
def readDelimited : Reader Constant := fun cs => do
  let rest ← expect "\x7b" cs
  let delimiter := String.ofList (rest.takeWhile isNameStart)
  let rest ← expect "|" (rest.dropWhile isNameStart)
  let (text, rest) ← readUntil (terminator delimiter).toList rest
  some (.string (String.ofList text) (some delimiter), rest)

/-- Reads a string in double quotes. -/
def readString : Reader Constant := fun cs => do
  let (text, rest) ← readQuoted '"' cs
  some (.string text none, rest)

/-- Reads a character in single quotes. -/
def readCharacter : Reader Constant := fun cs => do
  let (text, rest) ← readQuoted '\x27' cs
  let c ← text.toList.head?
  some (.char c, rest)

/-- Reads a number without a sign. -/
def readUnsigned : Reader Constant := fun cs => if startsDigit cs then readNumber cs else none

/-- Reads a constant other than a negative number. -/
def readConstant : Reader Constant :=
  firstOf [readString, readCharacter, readDelimited, readUnsigned]

/-- Whether the constant is a literal: numbers are numerals, and a string in the quoted form does
not hold what ends it. -/
def Constant.isLegible : Constant → Bool
  | .integer text suffix => isNumeral text && !isFractional text.toList && suffix.all isSuffix
  | .float text suffix => isNumeral text && isFractional text.toList && suffix.all isSuffix
  | .char _ | .string _ none => true
  | .string s (some delimiter) =>
      delimiter.toList.all isNameStart && !decide ((terminator delimiter).toList <:+: s.toList)

section

variable {s : String} {suffix : Option Char} {cs rest : List Char}

/-- `Char.isAlpha` as two ranges of numbers, for use with arithmetic. -/
theorem isAlpha_iff_toNat {c : Char} :
    c.isAlpha ↔ (65 ≤ c.toNat ∧ c.toNat ≤ 90) ∨ (97 ≤ c.toNat ∧ c.toNat ≤ 122) := by
  have hupper : c.isUpper ↔ 65 ≤ c.toNat ∧ c.toNat ≤ 90 := decide_eq_true_iff
  have hlower : c.isLower ↔ 97 ≤ c.toNat ∧ c.toNat ≤ 122 :=
    (Bool.and_eq_true _ _).to_iff.trans (and_congr decide_eq_true_iff decide_eq_true_iff)
  rw [← hupper, ← hlower]
  exact (Bool.or_eq_true _ _).to_iff

/-- A suffix of a number is among the characters that `readNumber` goes on over. -/
theorem isNumberPart_of_isSuffix {c : Char} (h : isSuffix c) : isNumberPart c := by
  have hletter : c.isAlpha := by
    simp only [isSuffix, Bool.or_eq_true, Bool.and_eq_true, decide_eq_true_eq, Char.le_def,
      UInt32.le_iff_toNat_le] at h
    rw [isAlpha_iff_toNat]
    simp at h
    omega
  simp only [isNumberPart, Char.isAlphanum, hletter, Bool.true_or]

/-- What follows a number does not change that it begins with a digit. -/
theorem startsDigit_append (h : startsDigit cs) : startsDigit (cs ++ rest) := by
  cases cs with
  | nil => exact absurd h Bool.false_ne_true
  | cons c cs => exact h

theorem startsDigit_unsigned_append (h : startsDigit (unsigned cs)) :
    startsDigit (unsigned (cs ++ rest)) := by
  cases cs with
  | nil => exact absurd h Bool.false_ne_true
  | cons c cs =>
      by_cases hc : c = '-'
      · subst hc
        exact startsDigit_append h
      · have hunsigned : ∀ cs, unsigned (c :: cs) = c :: cs := fun cs => by
          rw [unsigned]
          rintro _ ⟨⟩
          exact hc rfl
        rw [List.cons_append, hunsigned]
        rwa [hunsigned] at h

/-- The digits and the suffix of a written number are told apart again. -/
theorem ofNumber_text (h : isNumeral s) (hsuffix : suffix.all isSuffix) :
    Constant.ofNumber (s ++ suffixText suffix).toList = .ofNumeral s.toList suffix := by
  simp only [isNumeral, Bool.and_eq_true, Bool.not_eq_true'] at h
  cases suffix with
  | none =>
      have hlast : s.toList.getLast?.filter isSuffix = none := by
        cases hs : s.toList.getLast? with
        | none => rfl
        | some c => simpa [hs] using h.2
      rw [suffixText, String.append_empty, Constant.ofNumber, hlast]
  | some c =>
      have htext : (s ++ suffixText (some c)).toList = s.toList ++ [c] := by simp [suffixText]
      have hlast : (s.toList ++ [c]).getLast?.filter isSuffix = some c := by
        simpa using hsuffix
      rw [htext, Constant.ofNumber, hlast, List.dropLast_concat]

/-- A number is read up to its end, with or without a suffix. -/
theorem reads_readNumber (h : isNumeral s) (hsuffix : suffix.all isSuffix) :
    Reads readNumber (Ends isNumberPart) (s ++ suffixText suffix) (.ofNumeral s.toList suffix) := by
  intro rest hrest
  have hnumeral := h
  simp only [isNumeral, Bool.and_eq_true, List.all_eq_true] at h
  have hparts : ∀ c ∈ (s ++ suffixText suffix).toList, isNumberPart c := by
    intro c hc
    rw [String.toList_append, List.mem_append] at hc
    obtain hc | hc := hc
    · exact h.1.2 c hc
    · cases suffix with
      | none => simp [suffixText] at hc
      | some d =>
          obtain rfl : c = d := by simpa [suffixText] using hc
          exact isNumberPart_of_isSuffix hsuffix
  have hstart : startsDigit (unsigned ((s ++ suffixText suffix).toList ++ rest)) := by
    rw [String.toList_append, List.append_assoc]
    exact startsDigit_unsigned_append h.1.1
  rw [readNumber, if_pos hstart, takeWhile_append_of_ends hparts hrest,
    dropWhile_append_of_ends hparts hrest, ofNumber_text hnumeral hsuffix]

/-- Three decimal digits after a backslash are the number of a character. -/
theorem readEscape_of_isDigit {c : Char} (h : c.isDigit) (d e : Char) (cs : List Char) :
    readEscape (c :: d :: e :: cs) = some (.ofNat (ofDigits c d e), cs) := by
  unfold readEscape
  split
  case h_4 =>
      rename_i heq
      obtain ⟨rfl, rfl⟩ := List.cons.inj heq
      rw [if_pos h]
  case h_5 =>
      rename_i heq
      exact absurd heq (List.cons_ne_nil _ _)
  all_goals
    rename_i heq
    obtain ⟨rfl, -⟩ := List.cons.inj heq
    exact absurd h (by decide)

/-- The number of a control character is read as the character. -/
theorem readEscape_threeDigits {c : Char} (h : isControl c) (cs : List Char) :
    readEscape (threeDigits c.toNat ++ cs) = some (c, cs) := by
  have hdigits : ∀ n < 160, (Nat.digitChar (n / 100)).isDigit ∧ ofDigits (Nat.digitChar (n / 100))
      (Nat.digitChar (n / 10 % 10)) (Nat.digitChar (n % 10)) = n := by
    decide +kernel
  have hlt : c.toNat < 160 := by
    simp only [isControl, Bool.or_eq_true, Bool.and_eq_true, decide_eq_true_eq] at h
    omega
  obtain ⟨hdigit, hnumber⟩ := hdigits c.toNat hlt
  have hread := readEscape_of_isDigit hdigit (Nat.digitChar (c.toNat / 10 % 10))
    (Nat.digitChar (c.toNat % 10)) cs
  rw [hnumber, Char.ofNat_toNat] at hread
  exact hread

/-- Each character of a literal is read back, escaped or not, and nothing after it is touched. -/
theorem readChar_escapeChar {quote : Char} (hquote : quote ∈ ['"', '\x27']) (c : Char)
    (cs : List Char) : readChar quote (escapeChar quote c ++ cs) = some (c, cs) := by
  rw [escapeChar]
  split_ifs with hbackslash hnewline htab hreturn hc hcontrol
  · subst hbackslash
    rfl
  · subst hnewline
    rfl
  · subst htab
    rfl
  · subst hreturn
    rfl
  · subst hc
    simp only [List.mem_cons, List.not_mem_nil, or_false] at hquote
    obtain rfl | rfl := hquote <;> rfl
  · rw [List.cons_append, readChar, if_pos rfl, readEscape_threeDigits hcontrol]
  · rw [List.singleton_append, readChar, if_neg hbackslash, if_neg hc]

/-- An escaped text is the texts of its characters, one after the other. -/
theorem escape_eq_joinAll (quote : Char) (cs : List Char) :
    escape quote cs = (joinAll (cs.map fun c => String.ofList (escapeChar quote c))).toList := by
  induction cs with
  | nil => rfl
  | cons c cs ih =>
      rw [escape, List.flatMap_cons, List.map_cons, joinAll, String.toList_append,
        String.toList_ofList, ← ih, escape]

/-- No character is left out, so what is escaped is at least as long as the literal. -/
theorem escapeChar_ne_nil (quote c : Char) : escapeChar quote c ≠ [] := by
  rw [escapeChar]
  split_ifs <;> exact List.cons_ne_nil _ _

/-- Reading the characters of a quoted text goes on to where no character can be read. -/
theorem many_readChar_escape {quote : Char} (hquote : quote ∈ ['"', '\x27']) (cs : List Char)
    (h : readChar quote rest = none) :
    many (readChar quote) (escape quote cs ++ rest) = (cs, rest) := by
  have hchar : ∀ c ∈ cs, Reads (readChar quote) (fun _ => True)
      (String.ofList (escapeChar quote c)) (id c) := by
    intro c _ cs _
    rw [String.toList_ofList]
    exact readChar_escapeChar hquote c cs
  have hmany := many_joinAll hchar
    (fun c _ h => escapeChar_ne_nil quote c (by simpa using congrArg String.toList h))
    (fun _ _ _ => trivial) trivial h
  rwa [List.map_id, ← escape_eq_joinAll] at hmany

/-- A literal between quotes is read back up to the closing quote, which no character of it is taken
for. -/
theorem reads_readQuoted {quote : Char} (hquote : quote ∈ ['"', '\x27']) (s : String) :
    Reads (readQuoted quote) (fun _ => True) (quoted quote s) s := by
  intro rest _
  have hquoted : (quoted quote s).toList ++ rest =
      quote :: (escape quote s.toList ++ quote :: rest) := by
    rw [quoted, String.toList_ofList]
    simp
  have hend : readChar quote (quote :: rest) = none := by
    simp only [List.mem_cons, List.not_mem_nil, or_false] at hquote
    obtain rfl | rfl := hquote <;> rfl
  rw [hquoted, readQuoted]
  simp only [dropLead, if_pos, many_readChar_escape hquote s.toList hend, Option.bind_eq_bind,
    Option.bind_some, String.ofList_toList]

theorem eq_append_of_dropLead {ws r : List Char} (h : dropLead ws cs = some r) : cs = ws ++ r := by
  induction ws generalizing cs with
  | nil => exact Option.some.inj h
  | cons w ws ih =>
      cases cs with
      | nil => exact absurd h.symm (Option.some_ne_none r)
      | cons c cs =>
          by_cases hwc : w = c
          · subst hwc
            rw [dropLead, if_pos rfl] at h
            rw [ih h, List.cons_append]
          · rw [dropLead, if_neg hwc] at h
            exact absurd h.symm (Option.some_ne_none r)

/-- A word whose last letter is not among the others does not overlap with itself, so it does not
begin before it is written. -/
theorem dropLead_of_not_infix {ws text : List Char} {w : Char} (hw : w ∉ ws)
    (h : ¬ ws ++ [w] <:+: text) (htext : text ≠ []) :
    dropLead (ws ++ [w]) (text ++ (ws ++ [w] ++ rest)) = none := by
  have htext : 0 < text.length := List.length_pos_iff.2 htext
  rw [Option.eq_none_iff_forall_ne_some]
  intro r hr
  obtain ⟨t, hstop, ht⟩ | ⟨t, rfl, -⟩ := List.append_eq_append_iff.1 (eq_append_of_dropLead hr)
  · have hlength := congrArg List.length hstop
    rw [List.length_append, List.length_append] at hlength
    -- `t` is what of the word stands after the text: its end, and so its last letter `w`.
    obtain rfl | ⟨t, x, rfl⟩ := List.eq_nil_or_concat' t
    · have hwhole : ws ++ [w] = text := hstop.trans (List.append_nil text)
      exact h (hwhole ▸ List.infix_refl _)
    · obtain ⟨hws, hx⟩ := List.append_inj' (hstop.trans (List.append_assoc text t [x]).symm) rfl
      obtain rfl : w = x := List.singleton_inj.1 hx
      obtain ⟨u, hu, -⟩ | ⟨u, hu, -⟩ := List.append_eq_append_iff.1 ht
      · have := congrArg List.length hu
        simp only [List.length_append] at this hlength
        omega
      · obtain rfl | ⟨u, y, rfl⟩ := List.eq_nil_or_concat' u
        · have := congrArg List.length hu
          simp only [List.append_nil, List.length_append] at this hlength
          omega
        · have hword : ws = t ++ [w] ++ u :=
            (List.append_inj' (hu.trans (List.append_assoc _ u [y]).symm) rfl).1
          exact hw (by rw [hword]; simp)
  · exact h (List.prefix_append _ t).isInfix

/-- The text of a delimited string ends at the first terminator if it has none inside. -/
theorem readUntil_append {ws text : List Char} {w : Char} (hw : w ∉ ws)
    (h : ¬ ws ++ [w] <:+: text) (rest : List Char) :
    readUntil (ws ++ [w]) (text ++ (ws ++ [w] ++ rest)) = some (text, rest) := by
  induction text with
  | nil => rw [List.nil_append, readUntil.eq_def, dropLead_append]
  | cons c text ih =>
      have hrest : ¬ ws ++ [w] <:+: text := fun hmem =>
        h (List.IsInfix.trans hmem (List.suffix_cons c text).isInfix)
      have hlead : dropLead (ws ++ [w]) (c :: text ++ (ws ++ [w] ++ rest)) = none :=
        dropLead_of_not_infix hw h (List.cons_ne_nil c text)
      rw [List.cons_append] at hlead ⊢
      rw [readUntil.eq_def, hlead]
      simp only [ih hrest, Option.map_some]

/-- A string between `{id|` and `|id}` is read back if the terminator does not occur in it. -/
theorem reads_readDelimited {delimiter : String} (hdelimiter : delimiter.toList.all isNameStart)
    (h : ¬ (terminator delimiter).toList <:+: s.toList) :
    Reads readDelimited (fun _ => True) (Constant.string s (some delimiter)).text
      (.string s (some delimiter)) := by
  intro rest _
  rw [List.all_eq_true] at hdelimiter
  have hterminator : (terminator delimiter).toList = ("|" ++ delimiter).toList ++ ['\x7d'] := by
    simp [terminator]
  have htext : (Constant.string s (some delimiter)).text.toList ++ rest =
      "\x7b".toList ++ (delimiter.toList ++ ("|".toList ++
        (s.toList ++ ((terminator delimiter).toList ++ rest)))) := by
    simp [Constant.text, terminator]
  have hends : Ends isNameStart ("|".toList ++
      (s.toList ++ ((terminator delimiter).toList ++ rest))) := rfl
  have hlast : '\x7d' ∉ ("|" ++ delimiter).toList := by
    intro hmem
    rw [String.toList_append, List.mem_append] at hmem
    obtain hmem | hmem := hmem
    · exact absurd hmem (by decide)
    · exact absurd (hdelimiter _ hmem) (by decide)
  rw [hterminator] at h
  have huntil := readUntil_append hlast h rest
  rw [← hterminator] at huntil
  rw [htext, readDelimited, expect_append]
  simp only [takeWhile_append_of_ends hdelimiter hends, dropWhile_append_of_ends hdelimiter hends,
    expect_append, String.ofList_toList, huntil, Option.bind_eq_bind, Option.bind_some]

end

/-! ### all literals -/

theorem readQuoted_of_ne {quote c : Char} (h : quote ≠ c) (cs : List Char) :
    readQuoted quote (c :: cs) = none := by
  rw [readQuoted, dropLead, if_neg h, Option.bind_eq_bind, Option.bind_none]

theorem readString_of_ne {c : Char}
    (h : '"' ≠ c) (cs : List Char) : readString (c :: cs) = none := by
  rw [readString, readQuoted_of_ne h, Option.bind_eq_bind, Option.bind_none]

theorem readCharacter_of_ne {c : Char} (h : '\x27' ≠ c) (cs : List Char) :
    readCharacter (c :: cs) = none := by
  rw [readCharacter, readQuoted_of_ne h, Option.bind_eq_bind, Option.bind_none]

theorem readDelimited_of_ne {c : Char} (h : '\x7b' ≠ c) (cs : List Char) :
    readDelimited (c :: cs) = none := by
  rw [readDelimited, expect_of_ne (w := "\x7b") (bne_iff_ne.2 h), Option.bind_eq_bind,
    Option.bind_none]

theorem isNameStart_of_isDigit {d : Char} (h : d.isDigit) : isNameStart d = false := by
  have hd := Char.isDigit_iff_toNat.1 h
  simp at hd
  have hletter : ¬ d.isAlpha := by
    rw [isAlpha_iff_toNat]
    omega
  have hunderscore : d ≠ '_' := by
    rintro rfl
    exact absurd h (by decide)
  simp only [isNameStart, Bool.or_eq_false_iff, beq_eq_false_iff_ne, decide_eq_false_iff_not]
  exact ⟨⟨Bool.eq_false_iff.2 hletter, hunderscore⟩, by omega⟩

theorem ne_of_isDigit {c d : Char} (h : d.isDigit) (hc : c.isDigit = false) : c ≠ d := by
  rintro rfl
  rw [hc] at h
  exact Bool.false_ne_true h

/-- Nothing is read where no constant begins. -/
theorem readConstant_of_sign {c : Char} (hdigit : c.isDigit = false)
    (hc : c ∉ ['"', '\x27', '\x7b']) (cs : List Char) : readConstant (c :: cs) = none := by
  simp only [List.mem_cons, List.not_mem_nil, or_false, not_or] at hc
  rw [readConstant, firstOf_cons_of_none (readString_of_ne (Ne.symm hc.1) cs),
    firstOf_cons_of_none (readCharacter_of_ne (Ne.symm hc.2.1) cs),
    firstOf_cons_of_none (readDelimited_of_ne (Ne.symm hc.2.2) cs),
    firstOf_cons_of_none (by rw [readUnsigned]; exact if_neg (by simp [startsDigit, hdigit])),
    firstOf_nil]

/-- No constant begins as a name does. -/
theorem readConstant_of_isNameStart {c : Char} (h : isNameStart c) (cs : List Char) :
    readConstant (c :: cs) = none := by
  refine readConstant_of_sign (Bool.eq_false_iff.2 fun hdigit => ?_) ?_ cs
  · rw [isNameStart_of_isDigit hdigit] at h
    exact Bool.false_ne_true h
  · intro hc
    simp only [List.mem_cons, List.not_mem_nil, or_false] at hc
    obtain rfl | rfl | rfl := hc <;> exact absurd h (by decide)

/-- No number begins as a name does. -/
theorem readNumber_of_isNameStart {c : Char} (h : isNameStart c) (cs : List Char) :
    readNumber (c :: cs) = none := by
  have hsign : unsigned (c :: cs) = c :: cs := by
    rw [unsigned]
    rintro _ ⟨⟩
    exact absurd h (by decide)
  have hdigit : c.isDigit = false := Bool.eq_false_iff.2 fun hdigit => by
    rw [isNameStart_of_isDigit hdigit] at h
    exact Bool.false_ne_true h
  rw [readNumber, hsign, if_neg (by simp [startsDigit, hdigit])]

/-- Neither a name begins here, nor a form with an opening of its own, nor a literal. -/
structure Vacant (cs : List Char) : Prop extends NoOpening cs where
  constant : readConstant cs = none

/-- After a space, nothing begins that could be an argument. -/
def NotApplied (cs : List Char) : Prop := ∀ rest, expect " " cs = some rest → Vacant rest

/-- No reader that needs more than a space finds anything where no argument follows. -/
theorem NotApplied.after_eq_none {α : Type} {read : Reader α} {cs : List Char} (h : NotApplied cs)
    (hread : ∀ rest, Vacant rest → read rest = none) : after " " read cs = none := by
  rw [after, Option.bind_eq_bind, Option.bind_eq_none_iff]
  exact fun rest hrest => hread rest (h rest hrest)

theorem notApplied_of_expect {cs : List Char} (h : expect " " cs = none) : NotApplied cs := by
  intro rest hrest
  rw [h] at hrest
  exact absurd hrest nofun

theorem notApplied_of_vacant {cs : List Char} (h : Vacant cs) : NotApplied (' ' :: cs) := by
  intro rest hrest
  have hcs : expect " " (' ' :: cs) = some cs := expect_append " " cs
  rw [hcs] at hrest
  obtain rfl := Option.some.inj hrest
  exact h

/-- Nothing is read at a character that begins no name, no number, no bracket and no quote. -/
theorem vacant_of_sign {c : Char} (hname : isNameStart c = false) (hdigit : c.isDigit = false)
    (hc : c ∉ ['(', '[', '`', '\x7b', '"', '\x27']) (cs : List Char) : Vacant (c :: cs) := by
  simp only [List.mem_cons, List.not_mem_nil, or_false, not_or] at hc
  exact ⟨noOpening_of_sign hname (by simp [hc]) cs, readConstant_of_sign hdigit (by simp [hc]) cs⟩

/-- Keywords begin as names do. -/
theorem exists_isNameStart_of_keyword {w : String} (hw : w ∈ keywords) :
    ∃ c cs, w.toList = c :: cs ∧ isNameStart c := by
  have hall : ∀ w ∈ keywords, w.toList.head?.any isNameStart := by decide
  have hstart := hall w hw
  rw [Option.any_eq_true] at hstart
  obtain ⟨c, hc, hstart⟩ := hstart
  obtain ⟨cs, hcs⟩ := List.head?_eq_some_iff.1 hc
  exact ⟨c, cs, hcs, hstart⟩

/-- Nothing is read at a whole keyword, although it begins as a name does. -/
theorem vacant_of_keyword {w : String} (hw : w ∈ keywords) {cs : List Char}
    (hcs : Ends isNameChar cs) : Vacant (w.toList ++ cs) := by
  refine ⟨noOpening_of_keyword hw hcs, ?_⟩
  obtain ⟨c, ds, hds, hstart⟩ := exists_isNameStart_of_keyword hw
  rw [hds, List.cons_append, readConstant_of_isNameStart hstart]

/-- A keyword is no number. -/
theorem readNumber_of_keyword {w : String} (hw : w ∈ keywords) (cs : List Char) :
    readNumber (w.toList ++ cs) = none := by
  obtain ⟨c, ds, hds, hstart⟩ := exists_isNameStart_of_keyword hw
  rw [hds, List.cons_append, readNumber_of_isNameStart hstart]

/-- At a digit only a number can be read. -/
theorem readConstant_of_isDigit {c : Char} (h : c.isDigit) (cs : List Char) :
    readConstant (c :: cs) = readNumber (c :: cs) := by
  have hunsigned : readUnsigned (c :: cs) = readNumber (c :: cs) := if_pos h
  rw [readConstant, firstOf_cons_of_none (readString_of_ne (ne_of_isDigit h rfl) cs),
    firstOf_cons_of_none (readCharacter_of_ne (ne_of_isDigit h rfl) cs),
    firstOf_cons_of_none (readDelimited_of_ne (ne_of_isDigit h rfl) cs), firstOf,
    List.findSome?_cons, hunsigned]
  cases readNumber (c :: cs) <;> rfl

namespace Constant

variable {c : Constant}

/-- The text of a number is the numeral and its suffix. -/
theorem exists_numeral {text : String} {suffix : Option Char}
    (hc : c = .integer text suffix ∨ c = .float text suffix) (h : c.isLegible) :
    isNumeral text ∧ suffix.all isSuffix ∧ c.text = text ++ suffixText suffix ∧
      ofNumeral text.toList suffix = c := by
  obtain rfl | rfl := hc
  · simp only [isLegible, Bool.and_eq_true, Bool.not_eq_true'] at h
    refine ⟨h.1.1, h.2, rfl, ?_⟩
    rw [ofNumeral, h.1.2, if_neg Bool.false_ne_true, String.ofList_toList]
  · simp only [isLegible, Bool.and_eq_true] at h
    refine ⟨h.1.1, h.2, rfl, ?_⟩
    rw [ofNumeral, h.1.2, if_pos rfl, String.ofList_toList]

/-- A number without a sign begins with a digit. -/
theorem startsDigit_of_not_negative {s : String} (h : isNumeral s)
    (hsign : (s.toList.head? == some '-') = false) : startsDigit s.toList := by
  simp only [isNumeral, Bool.and_eq_true] at h
  cases hs : s.toList with
  | nil => rw [hs] at h; exact absurd h.1.1 Bool.false_ne_true
  | cons c cs =>
      have hunsigned : unsigned (c :: cs) = c :: cs := by
        rw [unsigned]
        rintro _ ⟨⟩
        simp [hs] at hsign
      rw [hs, hunsigned] at h
      exact h.1.1

/-- A character or a string is read, whatever follows. -/
theorem reads_quoted (h : c.isLegible) (hnumber : c.isNumber = false) :
    Reads readConstant (fun _ => True) c.text c := by
  cases c with
  | integer | float => exact absurd hnumber nofun
  | char c =>
      intro rest _
      have hread : readQuoted '\x27' ((quoted '\x27' c.toString).toList ++ rest) =
        some (c.toString, rest) := reads_readQuoted (by decide) c.toString rest trivial
      have hhead : c.toString.toList.head? = some c := by simp
      have hstring : readString ((quoted '\x27' c.toString).toList ++ rest) = none := by
        rw [quoted, String.toList_ofList, List.cons_append]
        exact readString_of_ne (by decide) _
      rw [text, readConstant, firstOf_cons_of_none hstring]
      refine firstOf_cons_of_some ?_
      rw [readCharacter, hread]
      simp only [hhead, Option.bind_eq_bind, Option.bind_some]
  | string s delimiter =>
      cases delimiter with
      | none =>
          intro rest _
          have hread : readQuoted '"' ((quoted '"' s).toList ++ rest) = some (s, rest) :=
            reads_readQuoted (by decide) s rest trivial
          rw [text, readConstant]
          refine firstOf_cons_of_some ?_
          rw [readString, hread]
          simp only [Option.bind_eq_bind, Option.bind_some]
      | some delimiter =>
          simp only [isLegible, Bool.and_eq_true, Bool.not_eq_true', decide_eq_false_iff_not] at h
          intro rest _
          have hread := reads_readDelimited h.1 h.2 rest trivial
          have hopen : (string s (some delimiter)).text.toList ++ rest = '\x7b' ::
              ((delimiter ++ "|" ++ s ++ "|" ++ delimiter ++ "\x7d").toList ++ rest) := by
            simp [text]
          rw [hopen] at hread ⊢
          rw [readConstant, firstOf_cons_of_none (readString_of_ne (by decide) _),
            firstOf_cons_of_none (readCharacter_of_ne (by decide) _), firstOf_cons_of_some hread]

/-- Every legible literal is read back from its text, if it is not a negative number. -/
theorem reads (h : c.isLegible) (hsign : c.isNegative = false) :
    Reads readConstant (Ends isNumberPart) c.text c := by
  have hnumber : ∀ text suffix, c = .integer text suffix ∨ c = .float text suffix →
      Reads readConstant (Ends isNumberPart) c.text c := by
    intro text suffix hc rest hrest
    obtain ⟨hnumeral, hsuffix, htext, hof⟩ := exists_numeral hc h
    have hhead : (text.toList.head? == some '-') = false := by
      obtain rfl | rfl := hc <;> exact hsign
    have hread := reads_readNumber hnumeral hsuffix rest hrest
    have hstart := startsDigit_of_not_negative hnumeral hhead
    cases htoList : text.toList with
    | nil => rw [htoList] at hstart; exact absurd hstart Bool.false_ne_true
    | cons d ds =>
        rw [htoList] at hstart
        rw [← htext, hof] at hread
        rw [htext, String.toList_append, htoList, List.append_assoc, List.cons_append] at hread ⊢
        rw [readConstant_of_isDigit hstart, hread]
  cases c with
  | integer text suffix => exact hnumber text suffix (.inl rfl)
  | float text suffix => exact hnumber text suffix (.inr rfl)
  | char | string => exact (reads_quoted h rfl).weaken fun _ _ => trivial

/-- A literal that is no negative number does not begin as a name or a form does. -/
theorem noOpening (h : c.isLegible) (hsign : c.isNegative = false) (rest : List Char) :
    NoOpening (c.text.toList ++ rest) := by
  have hnumber : ∀ text suffix, c = .integer text suffix ∨ c = .float text suffix →
      NoOpening (c.text.toList ++ rest) := by
    intro text suffix hc
    obtain ⟨hnumeral, -, htext, -⟩ := exists_numeral hc h
    have hhead : (text.toList.head? == some '-') = false := by
      obtain rfl | rfl := hc <;> exact hsign
    have hstart := startsDigit_of_not_negative hnumeral hhead
    rw [startsDigit, Option.any_eq_true] at hstart
    obtain ⟨d, hd, hdigit⟩ := hstart
    obtain ⟨cs, hcs⟩ := List.head?_eq_some_iff.1 hd
    rw [htext, String.toList_append, hcs, List.cons_append, List.cons_append]
    refine noOpening_of_sign (isNameStart_of_isDigit hdigit) ?_ _
    simp only [List.mem_cons, List.not_mem_nil, or_false, not_or]
    exact ⟨(ne_of_isDigit hdigit rfl).symm, (ne_of_isDigit hdigit rfl).symm,
      (ne_of_isDigit hdigit rfl).symm, (ne_of_isDigit hdigit rfl).symm⟩
  cases c with
  | integer text suffix => exact hnumber text suffix (.inl rfl)
  | float text suffix => exact hnumber text suffix (.inr rfl)
  | char c =>
      rw [text, quoted, String.toList_ofList, List.cons_append]
      exact noOpening_of_sign (c := '\x27') rfl (by decide) _
  | string s delimiter =>
      cases delimiter with
      | none =>
          rw [text, quoted, String.toList_ofList, List.cons_append]
          exact noOpening_of_sign (c := '"') rfl (by decide) _
      | some delimiter =>
          simp only [isLegible, Bool.and_eq_true, List.all_eq_true] at h
          have htext : (string s (some delimiter)).text.toList ++ rest =
              '\x7b' :: (delimiter.toList ++ ("|" ++ s ++ "|" ++ delimiter ++ "\x7d").toList ++
                rest) := by
            simp [text]
          have hbrace : ∀ d ds, ' ' ≠ d → expect "\x7b " ('\x7b' :: d :: ds) = none := by
            intro d ds hd
            have hword : "\x7b ".toList = ['\x7b', ' '] := rfl
            rw [expect, hword, dropLead, if_pos rfl, dropLead, if_neg hd]
          have hspace : expect "\x7b " ('\x7b' ::
              (delimiter.toList ++ ("|" ++ s ++ "|" ++ delimiter ++ "\x7d").toList ++ rest))
                = none := by
            cases hd : delimiter.toList with
            | nil =>
                rw [List.nil_append, String.append_assoc, String.append_assoc, String.append_assoc,
                  String.toList_append]
                exact hbrace '|' _ (by decide)
            | cons d ds =>
                refine hbrace d _ ?_
                rintro rfl
                exact absurd (h.1 ' ' (by simp [hd])) (by decide)
          have hname : readName ('\x7b' :: (delimiter.toList ++
              ("|" ++ s ++ "|" ++ delimiter ++ "\x7d").toList ++ rest)) = none :=
              readName_of_ends rfl
          rw [htext]
          refine noOpening_of_readName hname (fun w hw => ?_) fun w hw => ?_
          · simp only [openings, List.mem_cons, List.not_mem_nil, or_false] at hw
            obtain rfl | rfl | rfl | rfl | rfl := hw
            · exact expect_of_ne rfl
            · exact expect_of_ne rfl
            · exact expect_of_ne rfl
            · exact hspace
            · exact expect_of_ne rfl
          · have hall : ["( ", "()", "[]", "true", "false"].all
                fun w => w.toList.head?.any (· != '\x7b') := by decide
            exact expect_of_ne (List.all_eq_true.1 hall w hw)

/-- A negative number begins with its sign. -/
theorem reads_negative (h : c.isLegible) (hsign : c.isNegative) :
    Reads readNumber (Ends isNumberPart) c.text c ∧ ∃ cs, c.text.toList = '-' :: cs := by
  have hnumber : ∀ text suffix, c = .integer text suffix ∨ c = .float text suffix →
      Reads readNumber (Ends isNumberPart) c.text c ∧ ∃ cs, c.text.toList = '-' :: cs := by
    intro text suffix hc
    obtain ⟨hnumeral, hsuffix, htext, hof⟩ := exists_numeral hc h
    have hhead : text.toList.head? = some '-' := by
      obtain rfl | rfl := hc <;> exact beq_iff_eq.1 hsign
    obtain ⟨cs, hcs⟩ := List.head?_eq_some_iff.1 hhead
    have hread := reads_readNumber hnumeral hsuffix
    rw [hof, ← htext] at hread
    refine ⟨hread, cs ++ (suffixText suffix).toList, ?_⟩
    rw [htext, String.toList_append, hcs, List.cons_append]
  cases c with
  | integer text suffix => exact hnumber text suffix (.inl rfl)
  | float text suffix => exact hnumber text suffix (.inr rfl)
  | char c => exact absurd hsign Bool.false_ne_true
  | string s delimiter => exact absurd hsign Bool.false_ne_true

end Constant

end DeriveKit
