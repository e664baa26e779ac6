import Polyglot.Declare.Basic

/-!
# Declarations in Java

Properties become two methods, with a field where they are stored. Delegates become interfaces with one
method. The numbers of an enumeration become a field of its values.
-/

namespace Polyglot.Emit

variable (r : Emitter)

def javaModifiers (s : Symbol) (inInterface : Bool) : String :=
  let access := if inInterface then [] else [accessWord "public" s]
  let binding :=
    if s.isStatic then ["static"]
    else if inInterface then []
    else if s.isAbstract then ["abstract"]
    else []
  let constancy := if s.isReadOnly && s.kind = .field then ["final"] else []
  String.join ((access ++ binding ++ constancy).map (· ++ " "))

def javaParameters (s : Symbol) : Emit String :=
  formalParameters s.parameters fun p type name => do
    if p.passing ≠ .byValue then refusedParameter s p
    else
      match p.isVariadic, p.type with
      | true, .array e => do pure ((← typeName (some e)) ++ "... " ++ name)
      | _, _ => pure (type ++ " " ++ name)

def javaInitial (m : Member) : Emit String := do
  if m.initializer.isNone then pure "" else do pure (" = " ++ (← initialValue r m))

/-- A stored property: a field, and the methods that read and write it. -/
def javaStored (m : Member) (type getter setter : String) : Emit Unit := do
  let s := m.symbol
  let field := Text.lowerFirst s.targetName
  line ("private " ++ (if s.isStatic then "static " else "") ++ type ++ " " ++ field ++ (← javaInitial r m) ++ ";")
  blankLine
  lineBlock getter ["return " ++ field ++ ";"]
  if !s.isReadOnly then
    blankLine
    let own ← declaredName (← decl).head
    let owner := if s.isStatic then own else "this"
    lineBlock setter [owner ++ "." ++ field ++ " = value;"]

def javaProperty (m : Member) (modifiers : String) (inInterface : Bool) : Emit Unit := do
  let s := m.symbol
  let type ← typeName s.type
  if !s.parameters.isEmpty then unsupported {} ("indexer declaration " ++ s.name)
  else
    let getter := modifiers ++ type ++ " " ++ Target.getter .java s ++ "()"
    let setter := modifiers ++ "void " ++ Target.setter .java s ++ "(" ++ type ++ " value)"
    if inInterface then
      line (getter ++ ";")
      if !s.isReadOnly then line (setter ++ ";")
    else if m.isAuto then javaStored r m type getter setter
    else
      if m.getter.isSome then bodyBlock r getter m.getter
      if m.setter.isSome then
        if m.getter.isSome then blankLine
        bodyBlock r setter m.setter

def javaConstructor (m : Member) : Emit Unit := do
  let s := m.symbol
  let parameters ← javaParameters s
  if s.isStatic then bodyBlock r "static" m.body
  else
    let chain ←
      match m.chain with
      | none => pure []
      | some chain => do
        let (isBase, args) ← chainCall r chain
        pure [(if isBase then "super" else "this") ++ "(" ++ Text.join ", " args ++ ");"]
    let name ← declaredName (← decl).head
    bodyBlock r (accessWord "public" s ++ " " ++ name ++ "(" ++ parameters ++ ")") m.body chain

def javaMember (inInterface : Bool) (m : Member) : Emit Unit := do
  let s := m.symbol
  let modifiers := javaModifiers s inInterface
  match m.kind with
  | .field | .event => do
    line (modifiers ++ (← typeName s.type) ++ " " ++ (← symbolName s) ++ (← javaInitial r m) ++ ";")
  | .property => javaProperty r m modifiers inInterface
  | .constructor => javaConstructor r m
  | .method | .operator =>
    let parameters ← javaParameters s
    if s.isOverride then line "@Override"
    let generic := if s.typeParameters.isEmpty then "" else Target.argumentList s.typeParameters ++ " "
    let name ← if m.kind = .operator then pure s.name else symbolName s
    let head := modifiers ++ generic ++ (← returnType s) ++ " " ++ name ++ "(" ++ parameters ++ ")"
    if m.body.isNone then line (head ++ ";") else bodyBlock r head m.body

def javaClass (access name : String) : Emit Unit := do
  let d ← decl
  let isInterface := d.head.kind = .interfaceDecl
  let keyword := match d.head.kind with
    | .interfaceDecl => "interface"
    | .structDecl => "final class"
    | _ => if d.symbol.isAbstract then "abstract class" else "class"
  let base ←
    match (← read).baseClass with
    | none => pure ""
    | some t => do pure (" extends " ++ (← typeName (some t)))
  let supers ← (← read).interfaces.mapM fun t => typeName (some t)
  let supers :=
    if supers.isEmpty then "" else (if isInterface then " extends " else " implements ") ++ Text.join ", " supers
  openBlock (access ++ " " ++ keyword ++ " " ++ name ++ base ++ supers)
  separatedMembers (javaMember r isInterface)
  closeBlock
  endLine

/-- The lines of an enumeration's values: the last one ends the list. -/
def javaValueLines : List String → List String
  | [] => []
  | [last] => [last ++ ";"]
  | value :: rest => (value ++ ",") :: javaValueLines rest

def javaEnum (head : String) : Emit Unit := do
  let d ← decl
  let isNumbered := d.values.any (·.value.isSome)
  openBlock head
  lines (javaValueLines (d.numbered.map fun (name, number) =>
    Target.identifier .java name ++ (if isNumbered then "(" ++ number ++ ")" else "")))
  if isNumbered then
    blankLine
    line "private final int value;"
    blankLine
    lineBlock ((← declaredName d.head) ++ "(int value)") ["this.value = value;"]
    blankLine
    lineBlock "public int getValue()" ["return value;"]
  closeBlock
  endLine

def javaDeclaration : Emit Unit := do
  let d ← decl
  let name := (← declaredName d.head) ++ (← typeParameterList)
  let access := accessWord "public" d.symbol
  match d.head.kind with
  | .enumDecl => javaEnum (access ++ " enum " ++ name)
  | .delegateDecl =>
    let invoke ← invokeOf
    let parameters ← javaParameters invoke
    line "@FunctionalInterface"
    let result ← returnType invoke
    lineBlock (access ++ " interface " ++ name) [result ++ " invoke(" ++ parameters ++ ");"]
  | _ => javaClass r access name

def javaImport (idx : TypeIndex) (h : TypeHead) : String :=
  match Target.external? .java h.key with
  | some name => name
  | none =>
    let name := Target.openName .java idx .value (.named h)
    if h.space = "" then name else Target.namespaceName .java h.space ++ "." ++ name

def javaNeedsImport (own name : String) : Bool :=
  match Text.cutLast? '.' name with
  | some (package, _) => package ≠ "" && package ≠ own && package ≠ "java.lang"
  | none => false

def javaHead : Emit Unit := do
  let own := Target.namespaceName .java (← decl).space
  if own ≠ "" then
    line ("package " ++ own ++ ";")
    blankLine
  let idx ← index
  let imported := ((← imports).map fun i => javaImport idx i.head).filter (javaNeedsImport own)
  let names := Text.sorted (imported ++ (← requirements)).eraseDups
  lines (names.map fun name => "import " ++ name ++ ";")
  if !names.isEmpty then blankLine

def javaFile : Emit Unit := file (javaDeclaration r) javaHead

end Polyglot.Emit
