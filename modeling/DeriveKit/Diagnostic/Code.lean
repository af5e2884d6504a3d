/-!
# DeriveKit.Diagnostic.Code

The codes under which problems are reported, one for each cause, and the phases that raise them
(`Code.phase`). `Code.ofText?` finds the code that a user asks about by its number.
-/

namespace DeriveKit

/-- Where in an expansion a problem comes up. -/
inductive Phase
  | reading
  | resolution
  | decoding
  | generation
  | bookkeeping
deriving DecidableEq, Repr

/-- What is reported. -/
inductive Code
  | malformedRequest
  | malformedOptions
  | nonrecursive
  | malformedInline
  | unknownGenerator
  | unsupported
  | invalidAttribute
  | invalidOption
  | generatorError
  | suppressed
deriving DecidableEq, Repr

namespace Code

/-- All codes, in the order of their numbers. -/
def all : List Code :=
  [malformedRequest, malformedOptions, nonrecursive, malformedInline, unknownGenerator,
    unsupported, invalidAttribute, invalidOption, generatorError, suppressed]

/-- The number by which a code is known. -/
def text : Code → String
  | malformedRequest => "E1001"
  | malformedOptions => "E1002"
  | nonrecursive => "E1003"
  | malformedInline => "E1004"
  | unknownGenerator => "E2001"
  | unsupported => "E2002"
  | invalidAttribute => "E3001"
  | invalidOption => "E3002"
  | generatorError => "E4001"
  | suppressed => "E9002"

/-- What a code means, in a line. -/
def description : Code → String
  | malformedRequest => "malformed [@@deriving] annotation"
  | malformedOptions => "malformed generator option list"
  | nonrecursive => "the nonrec flag cannot be combined with deriving"
  | malformedInline => "malformed [%derive.*] extension"
  | unknownGenerator => "unknown generator"
  | unsupported => "generator does not support this declaration"
  | invalidAttribute => "invalid attribute payload"
  | invalidOption => "invalid generator option value"
  | generatorError => "generator error"
  | suppressed => "further errors suppressed"

/-- The phase that raises a code. -/
def phase : Code → Phase
  | malformedRequest | malformedOptions | nonrecursive | malformedInline => .reading
  | unknownGenerator | unsupported => .resolution
  | invalidAttribute | invalidOption => .decoding
  | generatorError => .generation
  | suppressed => .bookkeeping

/-- The code known by a number. -/
def ofText? (s : String) : Option Code := all.find? fun code => code.text == s

/-- What the user of a number is told if no code is known by it. -/
def unknownText (s : String) : String := "unknown error code: " ++ s

end Code

end DeriveKit
