import DeriveKit.Text.Unseen

/-!
# DeriveKit.Text.Visible

Texts in double quotes, written so that all of each can be seen: a character that would not show by
itself stands there as its number.
-/

namespace DeriveKit

/-- A character between double quotes, by its number if it would not show. -/
def visibleChar (c : Char) : List Char :=
  if c = '\x00' then ['\\', '0']
  else if c = '\t' then ['\\', 't']
  else if c = '\r' then ['\\', 'r']
  else if c = '\n' then ['\\', 'n']
  else if c = '\\' ∨ c = '"' then ['\\', c]
  else if isUnseen c then ['\\', 'u', '\x7b'] ++ Nat.toDigits 16 c.toNat ++ ['\x7d']
  else [c]

/-- A text in double quotes. -/
def visible (s : String) : String :=
  String.ofList ('"' :: (s.toList.flatMap visibleChar ++ ['"']))

end DeriveKit
