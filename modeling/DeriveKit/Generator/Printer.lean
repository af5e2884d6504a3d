import DeriveKit.Annotation.Read
import DeriveKit.Code.Quoter
import DeriveKit.Code.Reduce
import DeriveKit.Naming.Affix
import DeriveKit.Types.Params
import DeriveKit.Types.Standard

/-!
# DeriveKit.Generator.Printer

A generator of functions that turn values into text. A value of a variant type becomes the name of
its constructor followed by the texts of the arguments; an abbreviation uses the function for the
type that it stands for. An attribute on a constructor puts a function of the user's in the place of
the functions for its arguments.
-/

namespace DeriveKit

namespace Printer

/-- The function called after a printer and a type. -/
def affix (printer : String) : Affix := .before printer

mutual

/-- The function for a type that names nothing of the standard library by its qualification. -/
def functionFor (printer : String) : TypeExpr Payload → Outcome (Expr Payload)
  | ⟨.var name, span, _⟩ => .ok (.var (TypeParam.argName name) span)
  | ⟨.constr name args, span, _⟩ => do
    return .apply (.ident ((affix printer).qualName name.value) span)
      (← functionsFor printer args) span
  | ⟨shape, span, attributes⟩ =>
      let t : TypeExpr Payload := ⟨shape, span, attributes⟩
      fail (.custom (printer ++ " cannot be derived for " ++ t.text)) span

/-- The functions for types. -/
def functionsFor (printer : String) : List (TypeExpr Payload) → Outcome (List (Expr Payload))
  | [] => .ok []
  | t :: rest => return (← functionFor printer t) :: (← functionsFor printer rest)

end

/-- The function for a type. -/
def ofType (printer : String) (t : TypeExpr Payload) : Outcome (Expr Payload) :=
  functionFor printer t.unqualifyStandard

/-- The names of the arguments of a constructor. -/
def argNames (count : Nat) : List String := (List.range count).map fun n => "a" ++ toString n

/-- The pattern that names the arguments of a constructor. -/
def argPattern? (names : List String) : Option (Pattern Payload) :=
  match names with
  | [] => none
  | [name] => some (.var name .generated)
  | _ => some (.tuple (names.map fun name => .var name .generated) .generated)

/-- The function for an argument: the one the user gave, quoted, or the one for its type. -/
def argFunction (printer : String) (custom : Option (Expr Payload)) (q : Quoter)
    (t : TypeExpr Payload) : Outcome (Quoter × Expr Payload) :=
  match custom with
  | some e => .ok (q.quote e)
  | none => return (q, ← ofType printer t)

/-- The texts of arguments, each a function applied to the name of the argument. -/
def argTexts (printer : String) (custom : Option (Expr Payload)) (q : Quoter) :
    List (TypeExpr Payload × String) → Outcome (Quoter × List (Expr Payload))
  | [] => .ok (q, [])
  | (t, name) :: rest => do
    let (q, f) ← argFunction printer custom q t
    let (q, texts) ← argTexts printer custom q rest
    return (q, .apply f [.var name .generated] .generated :: texts)

/-- The case for a constructor, whose name is written with `front` before it. -/
def constructorCase (printer front : String) (q : Quoter) (c : Constructor Payload) :
    Outcome (Quoter × Case Payload) :=
  match c.args with
  | .record _ => fail (.custom (printer ++ ": inline records unsupported")) c.span
  | .tuple types => do
    let names := argNames types.length
    let custom ← Attribute.readValue? printer Decoder.expr
      (Attribute.find? printer "printer" c.attributes)
    let (q, texts) ← argTexts printer custom q (types.zip names)
    let label := Expr.string (front ++ c.name.value) .generated
    return (q, .plain (.construct (.simple c.name.value) (argPattern? names) .generated)
      (texts.foldl (Expr.operate (.var "^" .generated)) label))

/-- The cases for constructors in order. -/
def constructorCases (printer front : String) (q : Quoter) :
    List (Constructor Payload) → Outcome (Quoter × List (Case Payload))
  | [] => .ok (q, [])
  | c :: rest => do
    let (q, case) ← constructorCase printer front q c
    let (q, cases) ← constructorCases printer front q rest
    return (q, case :: cases)

/-- What is written before the names of the constructors of a declaration. -/
def front (printer : String) (settings : List Setting) (path : ModulePath)
    (decl : TypeDecl Payload) : Outcome String := do
  let withPath ← Setting.readValue? printer Decoder.bool settings "with_path"
  let origin := path.ofDecl decl
  return if withPath.getD true && !origin.segments.isEmpty then origin.text ++ "." else ""

/-- The body of the function for a declaration, and what it quotes. -/
def declBody (printer front : String) (decl : TypeDecl Payload) :
    Outcome (Quoter × Expr Payload) := do
  let q := Quoter.empty Quoter.defaultRuntime
  match decl.body, decl.manifest with
  | .variant constructors, _ =>
      let (q, cases) ← constructorCases printer front q constructors
      return (q, .function cases .generated)
  | .abstract, some manifest => return (q, ← ofType printer manifest)
  | _, _ => fail (.custom (printer ++ " cannot be derived for " ++ decl.name.value)) decl.span

/-- Turns a parameter that no legal declaration has into a fault. -/
def legal {α : Type} : Except (TypeExpr Payload) α → Outcome α
  | .ok a => .ok a
  | .error t => .error (.parameter t)

/-- The binding of the function for a declaration, which takes a function for each parameter. -/
def binding (printer : String) (settings : List Setting) (path : ModulePath)
    (decl : TypeDecl Payload) : Outcome (Binding Payload) := do
  let front ← front printer settings path decl
  let (q, body) ← declBody printer front decl
  let value ← legal (TypeParam.abstracted decl.params (q.wrap body))
  return .bare (.var ((affix printer).declName decl) .generated) value .generated

/-- The type of functions from a type to text. -/
def toText (t : TypeExpr Payload) : TypeExpr Payload :=
  .arrow t (.named "string" .generated) .generated

/-- The declaration of the function for a declaration. -/
def signatureItem (printer : String) (decl : TypeDecl Payload) :
    Outcome (SignatureItem Payload) := do
  let type ← legal (TypeParam.arrows toText decl.params (toText decl.self))
  return .value ((affix printer).declName decl) type .generated

end Printer

/-- The generator called `name` of functions that turn values into text. -/
def Generator.printer (name : String) : Generator where
  name := name
  structureTypes? := some fun settings path decls =>
    return [.value .recursive (← decls.mapM (Printer.binding name settings path)) .generated]
  signatureTypes? := some fun _ _ decls => decls.mapM (Printer.signatureItem name)
  inline? := some (Printer.ofType name)

end DeriveKit
