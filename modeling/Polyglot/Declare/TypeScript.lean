import Polyglot.Declare.Basic

/-!
# Declarations in TypeScript

A class has one constructor and no overloaded methods, so a declaration with overloads is unsupported. What a
class is made with is imported as a value, everything else as a type only.
-/

namespace Polyglot.Emit

variable (r : Emitter)

def typescriptModifiers (s : Symbol) (inInterface isConstant : Bool) : String :=
  if inInterface then ""
  else
    String.join (([accessWord "public" s] ++ (if s.isStatic then ["static"] else []) ++
      (if s.isAbstract then ["abstract"] else []) ++ (if isConstant then ["readonly"] else [])).map (· ++ " "))

def isConstant (s : Symbol) : Bool := s.isReadOnly && (s.kind = .field || s.kind = .property)

def typescriptParameters (s : Symbol) : Emit String :=
  formalParameters s.parameters fun p type name => do
    if p.passing ≠ .byValue then refusedParameter s p
    else
      match p.default with
      | some (.constant c) => do pure (name ++ ": " ++ type ++ " = " ++ (← literal c (some p.type)))
      | _ => pure (name ++ (if p.isOptional then "?: " else ": ") ++ type)

/-- A member that is stored. In a class it always has a value. -/
def typescriptStored (m : Member) (inInterface : Bool) (head : String) : Emit Unit := do
  if inInterface then line (head ++ ";") else do line (head ++ " = " ++ (← initialValue r m) ++ ";")

def typescriptProperty (m : Member) (inInterface : Bool) (name : String) : Emit Unit := do
  let s := m.symbol
  let type ← typeName s.type
  if !s.parameters.isEmpty then unsupported m.place "indexer declaration"
  else if inInterface || m.isAuto then
    typescriptStored r m inInterface (typescriptModifiers s inInterface (isConstant s) ++ name ++ ": " ++ type)
  else
    let access := typescriptModifiers s inInterface false
    if m.getter.isSome then bodyBlock r (access ++ "get " ++ name ++ "(): " ++ type) m.getter
    if m.setter.isSome then bodyBlock r (access ++ "set " ++ name ++ "(value: " ++ type ++ ")") m.setter

/-- A constructor. In a derived class it always calls the one of the base class. -/
def typescriptConstructor (m : Member) : Emit Unit := do
  if m.symbol.isStatic then bodyBlock r "static" m.body
  else
    let parameters ← typescriptParameters m.symbol
    let before ←
      match m.chain with
      | some chain => do
        let (isBase, args) ← chainCall r chain
        if isBase then pure ["super(" ++ Text.join ", " args ++ ");"]
        else unsupported chain.place "constructor chaining to a sibling constructor"
      | none => do pure (if (← read).baseClass.isSome then ["super();"] else [])
    bodyBlock r ("constructor(" ++ parameters ++ ")") m.body before

def typescriptMember (inInterface : Bool) (m : Member) : Emit Unit := do
  let s := m.symbol
  let name ← symbolName s
  let modifiers := typescriptModifiers s inInterface (isConstant s)
  match m.kind with
  | .field | .event => do
    typescriptStored r m inInterface (modifiers ++ name ++ ": " ++ (← typeName s.type))
  | .property => typescriptProperty r m inInterface name
  | .constructor => typescriptConstructor r m
  | .method | .operator =>
    let parameters ← typescriptParameters s
    let name := if m.kind = .operator then s.name else name
    let head := modifiers ++ name ++ Target.argumentList s.typeParameters ++ "(" ++ parameters ++ "): " ++
      (← returnType s)
    if m.body.isNone then line (head ++ ";") else bodyBlock r head m.body

def typescriptClass (name : String) : Emit Unit := do
  let d ← decl
  let isInterface := d.head.kind = .interfaceDecl
  let keyword :=
    if isInterface then "interface" else if d.symbol.isAbstract then "abstract class" else "class"
  let base ←
    match (← read).baseClass with
    | none => pure ""
    | some t => do pure (" extends " ++ (← fullName (some t)))
  let supers ← (← read).interfaces.mapM fun t => typeName (some t)
  let supers :=
    if supers.isEmpty then "" else (if isInterface then " extends " else " implements ") ++ Text.join ", " supers
  openBlock ("export " ++ keyword ++ " " ++ name ++ base ++ supers)
  separatedMembers (typescriptMember r isInterface)
  closeBlock
  endLine

def typescriptDeclaration : Emit Unit := do
  let d ← decl
  let name := (← declaredName d.head) ++ (← typeParameterList)
  match d.head.kind with
  | .enumDecl =>
    let values := d.values.map fun v =>
      Target.identifier .typescript v.name ++ ((v.value.map (" = " ++ ·)).getD "") ++ ","
    lineBlock ("export enum " ++ name) values
  | .delegateDecl =>
    let invoke ← invokeOf
    let parameters ← typescriptParameters invoke
    line ("export type " ++ name ++ " = (" ++ parameters ++ ") => " ++ (← returnType invoke) ++ ";")
  | _ => typescriptClass r name

def typescriptImport (i : Import) : Emit (Option String) := do
  match Target.external? .typescript i.head.key with
  | some _ => pure none
  | none =>
    let module := Text.dropTail ".ts" (← pathOf i.head .source)
    let specifier := Path.relativeModule (← read).artifact.path module
    let keyword := if i.full then "import" else "import type"
    pure (some (keyword ++ " \x7b " ++ (← declaredName i.head) ++ " \x7d from \"" ++ specifier ++ "\";"))

def typescriptHead : Emit Unit := do
  let imported ← (← imports).mapM typescriptImport
  let names := Text.sorted (imported.filterMap id ++ (← requirements))
  lines names
  if !names.isEmpty then blankLine

def typescriptFile : Emit Unit := do
  let d ← decl
  match d.overloaded? with
  | some what => unsupported d.place ("overloaded " ++ what ++ " in " ++ d.head.name)
  | none => file (typescriptDeclaration r) typescriptHead

end Polyglot.Emit
