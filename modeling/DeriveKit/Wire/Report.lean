import DeriveKit.Diagnostic.Queue
import DeriveKit.Wire.Source

/-!
# DeriveKit.Wire.Report

Reports, and the queues that hold them, in the exchange format (`Diagnostic.encode`,
`Queue.encode`). A report is read from what it is built from, so its parts may be left out
(`Data.listOrEmpty?`).
-/

namespace DeriveKit

/-- A phase by its name. -/
def Phase.encode : Phase → Data
  | reading => .string "Syntax"
  | resolution => .string "Resolution"
  | decoding => .string "Decoding"
  | generation => .string "Generator"
  | bookkeeping => .string "Internal"

/-- A code with all that is known of it. -/
def Code.encode (code : Code) : Data :=
  .object [("code", .string code.text), ("str", .string code.text),
    ("description", .string code.description), ("phase", code.phase.encode),
    ("index", .int (all.idxOf code)), ("count", .int all.length)]

/-- A remark as a structure. -/
def Remark.encode (r : Remark) : Data :=
  .object [("span", r.span.encode), ("message", .string r.message)]

/-- A list of texts. -/
def encodeTexts (texts : List String) : Data := .ofList .string texts

/-- Reads a list that may be left out; nothing stands for an empty one. -/
def Data.listOrEmpty? {α : Type} (item : Data → Option α) (d : Data) : Option (List α) :=
  (d.option? (Data.list? item)).map fun items => items.getD []

namespace Diagnostic

/-- A report with all that is known of it. -/
def encode (d : Diagnostic) : Data :=
  .object [("code", .string d.code.text), ("severity", .string d.severity.text),
    ("message", .string d.message), ("primary", .ofOption Remark.encode d.primary),
    ("primary_span", .ofOption Span.encode d.place?), ("is_error", .bool d.isError),
    ("related", .ofList Remark.encode d.related), ("notes", encodeTexts d.notes),
    ("help", encodeTexts d.help), ("text", .string d.text)]

/-- Reads the parts of a report and puts them together in order. -/
def decode (d : Data) : Option Diagnostic :=
  match d with
  | .object members => do
    let get := Data.member members
    let code ← Code.ofText? (← (get "code").string?)
    let isWarning ← (get "warning").option? Data.bool?
    let message ← (get "message").option? Data.string?
    let places ← (get "labels").listOrEmpty? (Data.pair? Span.decode Data.string?)
    let related ← (get "related").listOrEmpty? (Data.pair? Span.decode Data.string?)
    let notes ← (get "notes").listOrEmpty? Data.string?
    let help ← (get "help").listOrEmpty? Data.string?
    let plain := ofCode (if isWarning.getD false then .warning else .error) code
    let titled := { plain with message := message.getD plain.message }
    let placed := places.foldl (fun d place => d.at' place.1 place.2) titled
    let joined := related.foldl (fun d place => d.relate place.1 place.2) placed
    return help.foldl hint (notes.foldl note joined)
  | _ => none

end Diagnostic

/-- What can be asked of a queue. -/
def Queue.encode (q : Queue) : Data :=
  .object [("errors", .int q.errorCount), ("suppressed", .int q.suppressed),
    ("limit_reached", .bool q.isFull),
    ("has_errors", .ofOption (fun word => .string word.text) q.errors?),
    ("empty", .bool q.isEmpty), ("queued", encodeTexts (q.kept.map (·.message)))]

end DeriveKit
