import DeriveKit.Text.Pieces
import DeriveKit.Tree.Pattern

/-!
# DeriveKit.Text.Literal

Source text of constants (`Constant.text`). Quoted text is escaped character by character
(`escapeChar`), so that the text between the quotes never holds the closing quote and reads back as
what was quoted. Negative numbers stand in parentheses where another sign could belong to them.
-/

namespace DeriveKit

/-- Three decimal digits of a number below a thousand. -/
def threeDigits (n : Nat) : List Char :=
  [Nat.digitChar (n / 100), Nat.digitChar (n / 10 % 10), Nat.digitChar (n % 10)]

/-- The control characters: the two blocks of 32 without a glyph, and the delete character. -/
def isControl (c : Char) : Bool := c.toNat < 0x20 || (0x7f ≤ c.toNat && c.toNat < 0xa0)

/-- A character as it stands between two `quote` characters. -/
def escapeChar (quote c : Char) : List Char :=
  if c = '\\' then ['\\', '\\']
  else if c = '\n' then ['\\', 'n']
  else if c = '\t' then ['\\', 't']
  else if c = '\r' then ['\\', 'r']
  else if c = quote then ['\\', quote]
  else if isControl c then '\\' :: threeDigits c.toNat
  else [c]

/-- A text as it stands between two `quote` characters. -/
def escape (quote : Char) (cs : List Char) : List Char := cs.flatMap (escapeChar quote)

/-- A text between two `quote` characters. -/
def quoted (quote : Char) (s : String) : String :=
  String.ofList (quote :: (escape quote s.toList ++ [quote]))

/-- The text of a suffix letter that may be absent. -/
def suffixText : Option Char → String
  | none => ""
  | some c => c.toString

namespace Constant

/-- Whether the literal begins with a minus sign. -/
def isNegative : Constant → Bool
  | .integer text _ | .float text _ => text.toList.head? == some '-'
  | .char _ | .string _ _ => false

/-- Source text of a literal. -/
def text : Constant → String
  | .integer text suffix | .float text suffix => text ++ suffixText suffix
  | .char c => quoted '\x27' c.toString
  | .string s (some delimiter) => "\x7b" ++ delimiter ++ "|" ++ s ++ "|" ++ delimiter ++ "\x7d"
  | .string s none => quoted '"' s

end Constant

/-- Puts a text in parentheses if `wrap` says so. -/
def parens (wrap : Bool) (s : String) : String := if wrap then "(" ++ s ++ ")" else s

end DeriveKit
