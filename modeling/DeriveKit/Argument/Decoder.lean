import DeriveKit.Argument.Integer
import DeriveKit.Argument.Shape

/-!
# DeriveKit.Argument.Decoder

Reading arguments. A `Decoder` gives the value of an expression, or a description of what it
expected instead; descriptions for elements of lists say how many lists they are inside.
`Decoder.oneOf` is made of decoders for the values that it allows, and `Decoder.list` of a decoder
for the elements.
-/

namespace DeriveKit

/-- A way to read an expression, which may fail with a description of what was expected. -/
abbrev Decoder (π α : Type) := Expr π → Except String α

namespace Decoder

variable {π α : Type}

/-- Takes any expression as it is. -/
def expr : Decoder π (Expr π) := .ok

/-- Reads an integer that fits into 64 bits. -/
def int : Decoder π Int := fun e =>
  match e.asArgument with
  | .int literal =>
      match readInteger literal.toList with
      | some n => .ok n
      | none => .error "integer"
  | _ => .error "integer"

/-- Reads a truth value. -/
def bool : Decoder π Bool := fun e =>
  match e.asArgument with
  | .bool value => .ok value
  | _ => .error "boolean"

/-- Reads a string. -/
def string : Decoder π String := fun e =>
  match e.asArgument with
  | .string value => .ok value
  | _ => .error "string"

/-- Reads a character. -/
def char : Decoder π Char := fun e =>
  match e.asArgument with
  | .char value => .ok value
  | _ => .error "character"

/-- What is expected where one of some tags is. -/
def oneOfText (tags : List String) : String :=
  "one of: " ++ joinWith ", " (tags.map fun tag => "`" ++ tag)

/-- Reads one of the given tags. -/
def oneOf (tags : List String) : Decoder π String := fun e =>
  match e.asArgument with
  | .tag name => if tags.contains name then .ok name else .error (oneOfText tags)
  | _ => .error (oneOfText tags)

/-- Reads the elements of a list in order, up to the first that cannot be read. -/
def elements (item : Decoder π α) : List (Expr π) → Except String (List α)
  | [] => .ok []
  | e :: rest =>
      match item e with
      | .error expected => .error ("list:" ++ expected)
      | .ok value => (elements item rest).map (value :: ·)

/-- Reads a list literal. -/
def list (item : Decoder π α) : Decoder π (List α) := fun e =>
  match e.asArgument with
  | .list es => elements item es
  | _ => .error "list"

end Decoder

end DeriveKit
