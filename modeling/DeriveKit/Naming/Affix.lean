import DeriveKit.Source.QualName
import DeriveKit.Tree.Decl

/-!
# DeriveKit.Naming.Affix

Names of generated values: the name of a type with an affix. The name that a module gives to its
main type disappears, so `show` and `tree` make `show_tree`, and `show` and `t` make `show`.
-/

namespace DeriveKit

/-- What is put around the name of a type. -/
inductive Affix
  | before (front : String)
  | after (back : String)
  | around (front back : String)
deriving DecidableEq, Repr

/-- The name of the main type of a module. -/
def mainTypeName : String := "t"

namespace Affix

/-- The name made of the affix and `name`; of the affix alone if the name is `collapsed`. -/
def nameFor (affix : Affix) (collapsed name : String) : String :=
  match affix, name == collapsed with
  | before affix, true | after affix, true => affix
  | around front back, true => front ++ "_" ++ back
  | before front, false => front ++ "_" ++ name
  | after back, false => name ++ "_" ++ back
  | around front back, false => front ++ "_" ++ name ++ "_" ++ back

/-- The name made of the affix and the name of a type. -/
def name (affix : Affix) (type : String) : String := affix.nameFor mainTypeName type

/-- The name made of the affix and the name of a declared type. -/
def declName {π : Type} (affix : Affix) (decl : TypeDecl π) : String := affix.name decl.name.value

/-- The name made of the affix and the name of a type of some module, in the same module. -/
def qualName (affix : Affix) (type : QualName) : QualName := type.withLast (affix.name type.last)

end Affix

end DeriveKit
