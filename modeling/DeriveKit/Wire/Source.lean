import DeriveKit.Source.QualName
import DeriveKit.Source.Span
import DeriveKit.Wire.Data

/-!
# DeriveKit.Wire.Source

Spans, located values and qualified names in the exchange format. A `Span` is a structure of its two
bounds, a `Located` value stands beside its place, and a `QualName` is its path and its last
segment. The reader of each takes apart what the writer puts together.
-/

namespace DeriveKit

/-- A span as a structure of its two bounds. -/
def Span.encode (s : Span) : Data :=
  .object [("start", .int s.start.toNat), ("end", .int s.stop.toNat)]

/-- Reads a span. -/
def Span.decode (d : Data) : Option Span :=
  match d.fields? ["start", "end"] with
  | some [start, stop] => return ⟨← start.uint32?, ← stop.uint32?⟩
  | _ => none

/-- A located value as a structure of the value and its span. -/
def Located.encode {α : Type} (value : α → Data) (l : Located α) : Data :=
  .object [("txt", value l.value), ("span", l.span.encode)]

/-- Reads a located value. -/
def Located.decode {α : Type} (value : Data → Option α) (d : Data) : Option (Located α) :=
  match d.fields? ["txt", "span"] with
  | some [v, span] => return ⟨← value v, ← Span.decode span⟩
  | _ => none

/-- A qualified name as a structure of its path and its last segment. -/
def QualName.encode (n : QualName) : Data :=
  .object [("path", .ofList .string n.path), ("name", .string n.last)]

/-- Reads a qualified name. -/
def QualName.decode (d : Data) : Option QualName :=
  match d.fields? ["path", "name"] with
  | some [path, name] => return ⟨← path.list? Data.string?, ← name.string?⟩
  | _ => none

/-- A located text. -/
def encodeName (name : Located String) : Data := name.encode .string

/-- Reads a located text. -/
def decodeName : Data → Option (Located String) := Located.decode Data.string?

/-- A located qualified name. -/
def encodeQualName (name : Located QualName) : Data := name.encode QualName.encode

/-- Reads a located qualified name. -/
def decodeQualName : Data → Option (Located QualName) := Located.decode QualName.decode

/-- A located name that may be absent. -/
def encodeModuleName (name : Located (Option String)) : Data := name.encode (.ofOption .string)

/-- Reads a located name that may be absent. -/
def decodeModuleName : Data → Option (Located (Option String)) :=
  Located.decode (Data.option? Data.string?)

end DeriveKit
