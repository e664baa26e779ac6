import Polyglot.Declare.Basic

/-!
# Declarations in C#

C# has every construct of a document, so declarations are written as they are.
-/

namespace Polyglot.Emit

variable (r : Emitter)

def csharpModifiers (s : Symbol) (inInterface : Bool) : String :=
  let access := if inInterface then [] else [accessWord "internal" s]
  let binding :=
    if s.isStatic then ["static"]
    else if inInterface then []
    else if s.isAbstract then ["abstract"]
    else if s.isOverride then ["override"]
    else if s.isVirtual then ["virtual"]
    else []
  let constancy := if s.isReadOnly && s.kind = .field then ["readonly"] else []
  String.join ((access ++ binding ++ constancy).map (· ++ " "))

def csharpParameterWord (p : Parameter) : String :=
  if p.isThis then "this "
  else if p.isVariadic then "params "
  else if p.passing = .byValue then ""
  else p.passing.text ++ " "

def csharpParameters (parameters : List Parameter) : Emit String :=
  formalParameters parameters fun p type name => do
    let value := ((← parameterDefault r p).map (" = " ++ ·)).getD ""
    pure (csharpParameterWord p ++ type ++ " " ++ name ++ value)

def csharpInitial (m : Member) : Emit String := do
  if m.initializer.isNone then pure "" else do pure (" = " ++ (← initialValue r m))

/-- A property: stored, or with code of its own. -/
def csharpProperty (m : Member) (modifiers name : String) : Emit Unit := do
  let s := m.symbol
  let type ← typeName s.type
  let head ←
    if s.parameters.isEmpty then pure (modifiers ++ type ++ " " ++ name)
    else do pure (modifiers ++ type ++ " this[" ++ (← csharpParameters r s.parameters) ++ "]")
  if m.isAuto then
    let accessors := if s.isReadOnly then " \x7b get; \x7d" else " \x7b get; set; \x7d"
    let value ← csharpInitial r m
    line (head ++ accessors ++ (if value = "" then "" else value ++ ";"))
  else
    openBlock head
    if m.getter.isSome then bodyBlock r "get" m.getter
    if m.setter.isSome then bodyBlock r "set" m.setter
    closeBlock
    endLine

def csharpConstructor (m : Member) : Emit Unit := do
  let s := m.symbol
  let parameters ← csharpParameters r s.parameters
  let access := if s.isStatic then "static " else accessWord "internal" s ++ " "
  let chain ←
    match m.chain with
    | none => pure ""
    | some chain => do
      let (isBase, args) ← chainCall r chain
      pure (" : " ++ (if isBase then "base" else "this") ++ "(" ++ Text.join ", " args ++ ")")
  let name ← declaredName (← decl).head
  bodyBlock r (access ++ name ++ "(" ++ parameters ++ ")" ++ chain) m.body

def csharpMember (inInterface : Bool) (m : Member) : Emit Unit := do
  let s := m.symbol
  let modifiers := csharpModifiers s inInterface
  let name ← symbolName s
  match m.kind with
  | .field => do line (modifiers ++ (← typeName s.type) ++ " " ++ name ++ (← csharpInitial r m) ++ ";")
  | .event => do line (modifiers ++ "event " ++ (← typeName s.type) ++ " " ++ name ++ ";")
  | .property => csharpProperty r m modifiers name
  | .constructor => csharpConstructor r m
  | .method | .operator =>
    let parameters ← csharpParameters r s.parameters
    let name :=
      if m.kind = .operator then "operator " ++ operatorToken s.name
      else name ++ Target.argumentList s.typeParameters
    let head := modifiers ++ (← returnType s) ++ " " ++ name ++ "(" ++ parameters ++ ")"
    if m.body.isNone then line (head ++ ";") else bodyBlock r head m.body

def csharpClass (access name : String) : Emit Unit := do
  let d ← decl
  let keyword := match d.head.kind with
    | .interfaceDecl => "interface"
    | .structDecl => "struct"
    | _ => "class"
  let abstract := if d.symbol.isAbstract && keyword = "class" then "abstract " else ""
  let supers ← ((← read).baseClass.toList ++ (← read).interfaces).mapM fun t => typeName (some t)
  let supers := if supers.isEmpty then "" else " : " ++ Text.join ", " supers
  openBlock (access ++ " " ++ abstract ++ keyword ++ " " ++ name ++ supers)
  separatedMembers (csharpMember r (d.head.kind = .interfaceDecl))
  closeBlock
  endLine

def csharpDeclaration : Emit Unit := do
  let d ← decl
  let name := (← declaredName d.head) ++ (← typeParameterList)
  let access := accessWord "internal" d.symbol
  match d.head.kind with
  | .enumDecl =>
    let values := d.values.map fun v =>
      Target.identifier .csharp v.name ++ ((v.value.map (" = " ++ ·)).getD "") ++ ","
    lineBlock (access ++ " enum " ++ name) values
  | .delegateDecl =>
    let invoke ← invokeOf
    let parameters ← csharpParameters r invoke.parameters
    line (access ++ " delegate " ++ (← returnType invoke) ++ " " ++ name ++ "(" ++ parameters ++ ");")
  | _ => csharpClass r access name

/-- The namespaces that a file uses: not its own, and none that its own is inside of. -/
def csharpUsings (own : String) (entries : List Import) (required : List String) : List String :=
  let spaces := (entries.map (·.head.space)).filter fun space =>
    space ≠ "" && space ≠ own && !Text.hasLead (space ++ ".") (own ++ ".")
  Text.sorted (spaces ++ required).eraseDups

def csharpHead : Emit Unit := do
  let own := (← decl).space
  let usings := csharpUsings own (← imports) (← requirements)
  lines (usings.map fun space => "using " ++ space ++ ";")
  if !usings.isEmpty then blankLine
  if own ≠ "" then
    line ("namespace " ++ own ++ ";")
    blankLine

def csharpFile : Emit Unit := file (csharpDeclaration r) csharpHead

end Polyglot.Emit
