import DeriveKit.Annotation.Request
import DeriveKit.Wire.Source

/-!
# DeriveKit.Wire.Request

What annotations ask for in the exchange format: the name, the options (`Setting.encode`), and
whether the request may be passed over. The values of options stand as source text.
-/

namespace DeriveKit

/-- An option as a structure. -/
def Setting.encode (s : Setting) : Data :=
  .object [("name", .string s.key), ("value", .string s.value.text), ("span", s.span.encode)]

/-- A request as a structure. -/
def Request.encode (r : Request) : Data :=
  .object [("name", .string r.name), ("span", r.span.encode),
    ("options", .ofList Setting.encode r.settings), ("optional", .bool r.isOptional)]

end DeriveKit
