import DeriveKit.Diagnostic.Queue
import DeriveKit.Expansion.Items

/-!
# DeriveKit.Expansion.Report

Expanding units one after the other, with one queue for the reports (`Registry.expandStructure`,
`Registry.expandSignature`). A unit that is expanded leaves the queue as it is; one that fails adds
one report and gives no items (`Queue.settle`).
-/

namespace DeriveKit

variable {α : Type}

/-- Reports the failure of an outcome. The caller is told that it was reported. -/
def Queue.settle (q : Queue) : Outcome α → Outcome (Queue × Except Reported α)
  | .ok a => .ok (q, .ok a)
  | .error (.failure f) => .ok ((q.emit f.diagnostic).1, .error (q.emit f.diagnostic).2)
  | .error fault => .error fault

/-- Expands the structure in a file, and reports a failure to do so. -/
def Registry.expandStructure (r : Registry) (q : Queue) (file : String)
    (items : List (StructureItem Payload)) :
    Outcome (Queue × Except Reported (List (StructureItem Payload))) :=
  q.settle (StructureItem.expandAll r (.ofFile file) items)

/-- Expands the signature in a file, and reports a failure to do so. -/
def Registry.expandSignature (r : Registry) (q : Queue) (file : String)
    (items : List (SignatureItem Payload)) :
    Outcome (Queue × Except Reported (List (SignatureItem Payload))) :=
  q.settle (SignatureItem.expandAll r (.ofFile file) items)

end DeriveKit
