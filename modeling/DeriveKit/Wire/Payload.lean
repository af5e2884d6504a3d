import DeriveKit.Tree.Payload
import DeriveKit.Wire.Module

/-!
# DeriveKit.Wire.Payload

Payloads in the exchange format (`Payload.encode`, `Payload.decode`), and with them every tree over
payloads. The writer and the reader of each kind of tree take the format of payloads as an argument,
so one level of a payload is written with the format of the level below.
-/

namespace DeriveKit

/-- One level of payload as a choice. -/
def PayloadShape.encode {π : Type} (pay : π → Data) : PayloadShape π → Data
  | .structure items => .choice "Structure" (.list (StructureItem.encodeItems pay items))
  | .signature items => .choice "Signature" (.list (SignatureItem.encodeItems pay items))
  | .type t => .choice "Type" (t.encode pay)
  | .pattern p guard => .choice "Pattern" (.list [p.encode pay, Expr.encodeOption pay guard])

/-- Reads one level of payload. -/
def PayloadShape.decode {π : Type} (pay : Data → Option π) (n : Nat) (d : Data) :
    Option (PayloadShape π) :=
  match d.choice? with
  | some ("Structure", items) => return .structure (← items.list? (StructureItem.decode pay n))
  | some ("Signature", items) => return .signature (← items.list? (SignatureItem.decode pay n))
  | some ("Type", t) => return .type (← TypeExpr.decode pay n t)
  | some ("Pattern", .list [p, guard]) =>
      return .pattern (← Pattern.decode pay n p) (← guard.option? (Expr.decode pay n))
  | _ => none

/-- A payload in the exchange format. -/
def Payload.encode : Payload → Data := fold (PayloadShape.encode id)

/-- Reads a payload out of a value that is at most `n` deep. -/
def Payload.decode : Nat → Data → Option Payload
  | 0, _ => none
  | n + 1, d => (PayloadShape.decode (Payload.decode n) n d).map .ofShape

/-- Reads a tree with a reader that takes a bound on the depth of the value. -/
def Data.read {α : Type} (decode : (Data → Option Payload) → Nat → Data → Option α) (d : Data) :
    Option α :=
  decode (Payload.decode d.depth) d.depth d

end DeriveKit
