import DeriveKit.Text.Pieces
import DeriveKit.Tree.Decl

/-!
# DeriveKit.Naming.ModulePath

The modules that a declaration lies in: first the one of the source file (`ModulePath.ofFile`), then
those around it in the file (`ModulePath.child`). To name the first, the ending is taken off the
name of the file (`sourceStem?`), and then the last component of what is left is looked for
(`baseName?`).
-/

namespace DeriveKit

/-- The names of enclosing modules, outermost first. -/
structure ModulePath where
  segments : List String
deriving DecidableEq, Repr, Inhabited

/-- The last component of a file path. Slashes at the end and components that are a single dot do
not count, and a component that leads back up names no file. -/
def baseName? (path : List Char) : Option (List Char) :=
  let pieces := (cutAt '/' path).1 :: (cutAt '/' path).2
  match pieces.reverse.find? fun p => p ≠ [] ∧ p ≠ ['.'] with
  | none => none
  | some base => if base = ['.', '.'] then none else some base

/-- What stands before the ending of a source file. -/
def sourceStem? (file : List Char) : Option (List Char) :=
  match file.reverse with
  | 'l' :: 'm' :: '.' :: stem => some stem.reverse
  | _ => none

namespace ModulePath

/-- The path outside all modules. -/
def root : ModulePath := ⟨[]⟩

/-- The path in the module called `name` of a path. -/
def child (path : ModulePath) (name : String) : ModulePath := ⟨path.segments ++ [name]⟩

/-- A module named after the base of a file name, with a capital letter. -/
def ofBase : List Char → ModulePath
  | [] => root
  | c :: rest => ⟨[String.ofList (c.toUpper :: rest)]⟩

/-- The path of the unit in the file called `file`. Input that comes from no source file lies in no
module. -/
def ofFile (file : String) : ModulePath :=
  if file = "" ∨ file = "//toplevel//" then root
  else
    match sourceStem? file.toList with
    | none => root
    | some stem => ofBase ((baseName? stem).getD stem)

/-- A name as it is written from outside the modules of a path. -/
def expand (path : ModulePath) (name : String) : String := joinWith "." (path.segments ++ [name])

/-- The path with dots between its segments. -/
def text (path : ModulePath) : String := joinWith "." path.segments

/-- Where the constructors and fields of a declaration in `path` belong: to the module of the type
that it repeats, if it repeats one, and nowhere if it only abbreviates one. -/
def ofDecl {π : Type} (path : ModulePath) (decl : TypeDecl π) : ModulePath :=
  match decl.manifest with
  | some ⟨.constr name _, _, _⟩ =>
      match decl.body with
      | .abstract => root
      | .variant _ | .record _ | .extensible => ⟨name.value.path⟩
  | _ => path

end ModulePath

end DeriveKit
