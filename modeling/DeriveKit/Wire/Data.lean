/-!
# DeriveKit.Wire.Data

The values that trees are exchanged as, and the conventions they follow. A structure is an object
with a member for each field, or a list with an element for each field in order; a member that is
missing reads as `null`. A choice without an argument is its name; one with an argument is an
object with the name as its only member, and several arguments make a list.
-/

namespace DeriveKit

/-- A value of the exchange format. Only whole numbers occur. -/
inductive Data
  | null
  | bool (value : Bool)
  | int (value : Int)
  | string (value : String)
  | list (items : List Data)
  | object (members : List (String × Data))
deriving Inhabited

namespace Data

mutual

/-- How deeply values are nested in a value, itself included. -/
def depth : Data → Nat
  | null | bool _ | int _ | string _ => 1
  | list items => depthItems items + 1
  | object members => depthMembers members + 1

/-- The largest depth of the items of a list. -/
def depthItems : List Data → Nat
  | [] => 0
  | d :: rest => max (depth d) (depthItems rest)

/-- The largest depth of the members of an object. -/
def depthMembers : List (String × Data) → Nat
  | [] => 0
  | (_, d) :: rest => max (depth d) (depthMembers rest)

end

/-- The member called `name`, or `null` if there is none. -/
def member (members : List (String × Data)) (name : String) : Data :=
  (members.lookup name).getD null

/-- The fields of a structure, in the order of `names`. -/
def fields? (names : List String) : Data → Option (List Data)
  | object members => some (names.map (member members))
  | list items => if items.length = names.length then some items else none
  | _ => none

/-- The name and the argument of a choice; a choice without an argument has `null` for one. -/
def choice? : Data → Option (String × Data)
  | string name => some (name, null)
  | object [(name, arg)] => some (name, arg)
  | _ => none

/-- A truth value. -/
def bool? : Data → Option Bool
  | bool value => some value
  | _ => none

/-- A text. -/
def string? : Data → Option String
  | string value => some value
  | _ => none

/-- A single character, written as a text. -/
def char? : Data → Option Char
  | string value =>
      match value.toList with
      | [c] => some c
      | _ => none
  | _ => none

/-- An unsigned number of 32 bits. -/
def uint32? : Data → Option UInt32
  | int value =>
      if 0 ≤ value ∧ value < UInt32.size then some (UInt32.ofNat value.toNat) else none
  | _ => none

/-- The items of a list, each read with `item`. -/
def list? {α : Type} (item : Data → Option α) : Data → Option (List α)
  | list items => items.mapM item
  | _ => none

/-- A value read with `value`, or nothing for `null`. -/
def option? {α : Type} (value : Data → Option α) : Data → Option (Option α)
  | null => some none
  | d => (value d).map some

/-- Two values in a list. -/
def pair? {α β : Type} (first : Data → Option α) (second : Data → Option β) :
    Data → Option (α × β)
  | list [a, b] => return (← first a, ← second b)
  | _ => none

/-- A choice among names. -/
def enum? {α : Type} (names : List (String × α)) (d : Data) : Option α :=
  match d.choice? with
  | some (name, null) => names.lookup name
  | _ => none

/-- A choice with arguments. -/
def choice (name : String) (arg : Data) : Data := object [(name, arg)]

/-- A value that may be absent. -/
def ofOption {α : Type} (value : α → Data) : Option α → Data
  | none => null
  | some a => value a

/-- A list of values. -/
def ofList {α : Type} (item : α → Data) (items : List α) : Data := list (items.map item)

end Data

end DeriveKit
