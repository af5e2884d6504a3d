/-!
# DeriveKit.Argument.Integer

The values of integer literals. A literal is decimal digits, or digits to another base after a mark
for it (`splitMark`), with a minus sign in front (`splitMinus`) and low lines anywhere after the
sign. `readSigned` reads digits with a sign of their own, of either kind; `readInteger` gives it the
sign of the literal and lets no second one pass. A value has to fit into 64 bits (`fit64`).
-/

namespace DeriveKit

/-! ## digits -/

/-- The value of a digit or letter. -/
def digitValue? (c : Char) : Option Nat :=
  if '0' ≤ c ∧ c ≤ '9' then some (c.toNat - '0'.toNat)
  else if 'a' ≤ c ∧ c ≤ 'z' then some (c.toNat - 'a'.toNat + 10)
  else if 'A' ≤ c ∧ c ≤ 'Z' then some (c.toNat - 'A'.toNat + 10)
  else none

/-- Appends digits to a number; `none` if one of them is no digit to the base. -/
def readDigits (base : Nat) (acc : Nat) : List Char → Option Nat
  | [] => some acc
  | c :: rest =>
      match digitValue? c with
      | none => none
      | some d => if d < base then readDigits base (base * acc + d) rest else none

/-- The number that digits denote to a base; there has to be one at least. -/
def readNatural (base : Nat) : List Char → Option Nat
  | [] => none
  | c :: rest => readDigits base 0 (c :: rest)

/-- A number that fits into 64 bits with a sign. -/
def fit64 (n : Int) : Option Int :=
  if -0x8000000000000000 ≤ n ∧ n < 0x8000000000000000 then some n else none

/-- The integer that digits denote to a base, with a sign of either kind before them or with
none. -/
def readSigned (base : Nat) : List Char → Option Int
  | '-' :: digits => (readNatural base digits).bind fun n => fit64 (-n)
  | '+' :: digits => (readNatural base digits).bind fun n => fit64 n
  | digits => (readNatural base digits).bind fun n => fit64 n

/-! ## literals -/

/-- Cuts a text after its first `n` bytes, if it is so long and no character goes across the cut. -/
def cutBytes? : Nat → List Char → Option (List Char × List Char)
  | 0, text => some ([], text)
  | _ + 1, [] => none
  | n + 1, c :: rest =>
      if c.utf8Size ≤ n + 1 then
        (cutBytes? (n + 1 - c.utf8Size) rest).map fun (front, back) => (c :: front, back)
      else none

/-- The base that a mark in the first two bytes says, and what stands after the mark; the base ten,
and the whole text, if there is no mark. -/
def splitMark (text : List Char) : Nat × List Char :=
  match cutBytes? 2 text with
  | some (['0', 'x'], digits) | some (['0', 'X'], digits) => (16, digits)
  | some (['0', 'o'], digits) | some (['0', 'O'], digits) => (8, digits)
  | some (['0', 'b'], digits) | some (['0', 'B'], digits) => (2, digits)
  | _ => (10, text)

/-- Whether a literal has a minus sign in front, and the literal without it. -/
def splitMinus : List Char → Bool × List Char
  | '-' :: digits => (true, digits)
  | literal => (false, literal)

/-- Whether a text begins with a sign. -/
def isSigned : List Char → Bool
  | '+' :: _ | '-' :: _ => true
  | _ => false

/-- The value of an integer literal. Digits may not begin with a sign once the sign of the literal,
the low lines and the mark are gone, because `readSigned` would take it. -/
def readInteger (literal : List Char) : Option Int :=
  let (negative, digits) := splitMinus literal
  let (base, body) := splitMark (digits.filter (· ≠ '_'))
  if isSigned body then none
  else readSigned base (if negative then '-' :: body else body)

end DeriveKit
