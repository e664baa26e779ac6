import Polyglot.Declare.Basic

/-!
# Declarations in C++

A type has a header, and an implementation for the bodies that need not stand in the header. Generic types and
generic methods have their bodies in the header. A header only announces the types that it refers to through
pointers; the implementation includes them.
-/

namespace Polyglot.Emit

variable (r : Emitter)

/-! ## Parts of declarations -/

/-- A parameter, with the value it has when it is left out where the declaration gives one. -/
def cppParameters (parameters : List Parameter) (withDefaults : Bool) : Emit String :=
  formalParameters parameters fun p type name => do
    let type ←
      match p.passing with
      | .byValue => pure type
      | .byIn => do pure ("const " ++ (← declaredTypeName (some p.type)) ++ "&")
      | _ => do pure ((← declaredTypeName (some p.type)) ++ "&")
    if withDefaults then
      let value := ((← parameterDefault r p).map (" = " ++ ·)).getD ""
      pure (type ++ " " ++ name ++ value)
    else pure (type ++ " " ++ name)

/-- Opens the section of a class for an access, unless it is open. -/
def cppSection (access : Access) : Emit Unit := do
  let word := if access = .private || access = .protected then access.text else "public"
  if (← get).accessSection = word then pure ()
  else
    modify ({ · with accessSection := word })
    outdent
    line (word ++ ":")
    indent

def cppModifier (s : Symbol) (inInterface : Bool) : String :=
  if s.isStatic then "static "
  else if inInterface || s.isAbstract || s.isVirtual || s.isOverride then "virtual "
  else ""

def cppSuffix (s : Symbol) (inInterface : Bool) : String :=
  if s.isStatic then ""
  else if inInterface || s.isAbstract then " = 0"
  else if s.isOverride then " override"
  else ""

/-- The line before a generic declaration. -/
def cppTemplate (parameters : List String) : List String :=
  if parameters.isEmpty then []
  else ["template <" ++ Text.join ", " (parameters.map ("typename " ++ ·)) ++ ">"]

/-- A body, where it stands in the header, or the head alone. -/
def cppInline (isInline : Bool) (head : String) (body : Option Stmt) : Emit Unit :=
  if isInline then bodyBlock r head body else line (head ++ ";")

/-! ## Members of a class -/

def cppField (m : Member) (name : String) : Emit Unit := do
  let s := m.symbol
  cppSection s.access
  let type ← declaredTypeName s.type s.isWeak
  let value ←
    if m.initializer.isSome || s.isStatic || s.type.any (·.isPrimitive) then do
      pure (" = " ++ (← initialValue r m))
    else pure ""
  line ((if s.isStatic then "inline static " else "") ++ type ++ " " ++ name ++ value ++ ";")

def cppProperty (m : Member) (inInterface isInline : Bool) : Emit Unit := do
  let s := m.symbol
  if !s.parameters.isEmpty then unsupported m.place "indexer declaration"
  else
    cppSection s.access
    let type ← declaredTypeName s.type
    let parameter ← usedTypeName s.type
    let modifier := cppModifier s inInterface
    let suffix := cppSuffix s inInterface
    let getter := modifier ++ type ++ " " ++ Target.getter .cpp s ++ "()" ++ suffix
    let setter := modifier ++ "void " ++ Target.setter .cpp s ++ "(" ++ parameter ++ " value)" ++ suffix
    if inInterface || s.isAbstract then
      line (getter ++ ";")
      if !s.isReadOnly then line (setter ++ ";")
    else if m.isAuto then
      let field := backingField s
      line (getter ++ " \x7b return " ++ field ++ "; \x7d")
      if !s.isReadOnly then line (setter ++ " \x7b " ++ field ++ " = value; \x7d")
      cppSection .private
      let value ← initialValue r m
      line ((if s.isStatic then "inline static " else "") ++ type ++ " " ++ field ++ " = " ++ value ++ ";")
    else
      if m.getter.isSome then cppInline r isInline getter m.getter
      if m.setter.isSome then cppInline r isInline setter m.setter

def cppChain (m : Member) : Emit String := do
  match m.chain with
  | none => pure ""
  | some chain =>
    let (isBase, args) ← chainCall r chain
    let target ←
      if isBase then
        match (← read).baseClass with
        | some t => do pure (some (← nameOf (some t) .value))
        | none => pure none
      else do pure (some (← declaredName (← decl).head))
    pure ((target.map fun t => " : " ++ t ++ "(" ++ Text.join ", " args ++ ")").getD "")

def cppConstructor (m : Member) (isInline : Bool) : Emit Unit := do
  if m.symbol.isStatic then unsupported m.place "static constructor"
  else
    cppSection m.symbol.access
    let parameters ← cppParameters r m.symbol.parameters true
    let head := (← declaredName (← decl).head) ++ "(" ++ parameters ++ ")"
    if isInline then do bodyBlock r (head ++ (← cppChain r m)) m.body else line (head ++ ";")

def cppMethod (m : Member) (name : String) (inInterface isInline : Bool) : Emit Unit := do
  let s := m.symbol
  cppSection s.access
  let parameters ← cppParameters r s.parameters true
  lines (cppTemplate s.typeParameters)
  let head := cppModifier s inInterface ++ (← returnType s) ++ " " ++ name ++ "(" ++ parameters ++ ")" ++
    cppSuffix s inInterface
  cppInline r (m.body.isSome && (isInline || !s.typeParameters.isEmpty)) head m.body

def cppMember (m : Member) : Emit Unit := do
  let d ← decl
  let inInterface := d.head.kind = .interfaceDecl
  let name ← symbolName m.symbol
  match m.kind with
  | .field | .event => cppField r m name
  | .property => cppProperty r m inInterface d.isGeneric
  | .constructor => cppConstructor r m d.isGeneric
  | .method => cppMethod r m name inInterface d.isGeneric
  | .operator => pure ()

def cppOperator (m : Member) : Emit Unit := do
  let d ← decl
  let s := m.symbol
  let parameters ← cppParameters r s.parameters false
  let head := (← returnType s) ++ " operator" ++ operatorToken s.name ++ "(" ++ parameters ++ ")"
  blankLine
  if d.isGeneric then
    lines (cppTemplate d.head.params)
    inMember m (bodyBlock r head m.body)
  else line (head ++ ";")

/-! ## Types -/

def cppSupers : Emit (List String) := do
  let scene ← read
  let base ←
    match scene.baseClass with
    | some t => do pure ["public " ++ (← fullName (some t))]
    | none => pure (if scene.decl.head.kind = .structDecl then [] else ["public virtual phase::Object"])
  let interfaces ← scene.interfaces.mapM fun t => do pure ("public virtual " ++ (← fullName (some t)))
  pure (base ++ interfaces)

/-- A class, a structure or an interface. -/
def cppClass (name : String) : Emit Unit := do
  let d ← decl
  let isStruct := d.head.kind = .structDecl
  let supers ← cppSupers
  let supers := if supers.isEmpty then "" else " : " ++ Text.join ", " supers
  lines (cppTemplate d.head.params)
  openBlock ((if isStruct then "struct " else "class ") ++ name ++ supers)
  modify ({ · with accessSection := if isStruct then "public" else "private" })
  d.withPrevious.forM fun (previous, m) => do
    if m.kind ≠ .operator then
      if isSeparated previous m then blankLine
      inMember m (cppMember r m)
  if !isStruct && (← read).baseClass.isNone then
    cppSection .public
    line ("virtual ~" ++ name ++ "() = default;")
  closeBlock
  write ";"
  endLine
  (d.membersOf [.operator]).forM (cppOperator r)

/-- **A declaration in C++**, as it stands in a header. -/
def cppDeclaration : Emit Unit := do
  let d ← decl
  let name ← declaredName d.head
  match d.head.kind with
  | .enumDecl =>
    openBlock ("enum class " ++ name ++ " : std::int32_t")
    lines (d.numbered.map fun (value, number) => Target.identifier .cpp value ++ " = " ++ number ++ ",")
    closeBlock
    write ";"
    endLine
  | .delegateDecl =>
    let invoke ← invokeOf
    let parameters ← cppParameters r invoke.parameters false
    lines (cppTemplate d.head.params)
    line ("using " ++ name ++ " = std::function<" ++ (← returnType invoke) ++ "(" ++ parameters ++ ")>;")
  | _ => cppClass r name

/-! ## Bodies outside of the class -/

def hasDefinition (m : Member) : Bool :=
  match m.kind with
  | .method | .constructor | .operator => m.body.isSome
  | .property => m.getter.isSome || m.setter.isSome
  | _ => false

/-- The body of a member, outside of its class. Generic methods have theirs in the header. -/
def cppDefinition (m : Member) : Emit Unit := do
  let s := m.symbol
  let owner ← declaredName (← decl).head
  match m.kind with
  | .constructor =>
    let parameters ← cppParameters r s.parameters false
    let chain ← cppChain r m
    bodyBlock r (owner ++ "::" ++ owner ++ "(" ++ parameters ++ ")" ++ chain) m.body
  | .method =>
    if !s.typeParameters.isEmpty then pure ()
    else
      let parameters ← cppParameters r s.parameters false
      bodyBlock r ((← returnType s) ++ " " ++ owner ++ "::" ++ (← symbolName s) ++ "(" ++ parameters ++ ")") m.body
  | .operator =>
    let parameters ← cppParameters r s.parameters false
    bodyBlock r ((← returnType s) ++ " operator" ++ operatorToken s.name ++ "(" ++ parameters ++ ")") m.body
  | .property =>
    let type ← declaredTypeName s.type
    let parameter ← usedTypeName s.type
    if m.getter.isSome then bodyBlock r (type ++ " " ++ owner ++ "::" ++ Target.getter .cpp s ++ "()") m.getter
    if m.setter.isSome then
      if m.getter.isSome then blankLine
      bodyBlock r ("void " ++ owner ++ "::" ++ Target.setter .cpp s ++ "(" ++ parameter ++ " value)") m.setter
  | _ => pure ()

def cppDefinitions : Bool → List Member → Emit Unit
  | _, [] => pure ()
  | isFirst, m :: rest => do
    if !isFirst then blankLine
    inMember m (cppDefinition r m)
    cppDefinitions false rest

/-! ## Files -/

def cppNamespace (x : Emit Unit) : Emit Unit := do
  let space := Target.namespaceName .cpp (← decl).space
  if space = "" then x
  else
    line ("namespace " ++ space ++ " \x7b")
    blankLine
    x
    blankLine
    line ("\x7d // namespace " ++ space)

def cppForward? (h : TypeHead) : Emit (Option String) := do
  let isAnnounced := (Target.external? .cpp h.key).isNone && (h.kind = .classDecl || h.kind = .interfaceDecl) &&
    h.arity = 0
  if isAnnounced then
    let line := "class " ++ (← declaredName h) ++ ";"
    let space := Target.namespaceName .cpp (Target.declaredSpace h)
    pure (some (if space = "" then line else "namespace " ++ space ++ " \x7b " ++ line ++ " \x7d"))
  else pure none

def includeLine (path : String) : String := "#include \"" ++ path ++ "\""

/-- The line that includes a type; types of the library need none. -/
def cppInclude? (h : TypeHead) : Emit (Option String) := do
  match Target.external? .cpp h.key with
  | some _ => pure none
  | none => do pure (some (includeLine (← pathOf h .declaration)))

/-- What an import becomes in a header: a line that includes the type, or a line that announces it. -/
def cppHeaderImport (i : Import) : Emit (Option String × Option String) := do
  let forward ← if i.full then pure none else cppForward? i.head
  match forward with
  | some line => pure (none, some line)
  | none => do pure (← cppInclude? i.head, none)

def cppHeaderHead : Emit Unit := do
  line "#pragma once"
  blankLine
  line (includeLine "phase/runtime.h")
  let entries ← (← imports).mapM cppHeaderImport
  let forwards := entries.filterMap (·.2)
  lines (entries.filterMap (·.1) ++ (← requirements))
  blankLine
  lines forwards
  if !forwards.isEmpty then blankLine

def cppSourceHead : Emit Unit := do
  line (includeLine (← pathOf (← decl).head .declaration))
  let includes ← (← imports).mapM fun i => cppInclude? i.head
  lines (includes.filterMap id ++ (← requirements))
  blankLine

def cppFile : Emit Unit := do
  match (← read).artifact.kind with
  | .definition =>
    let members := (← decl).members.filter hasDefinition
    file (cppNamespace (cppDefinitions r true members)) cppSourceHead
  | _ => file (cppNamespace (cppDeclaration r)) cppHeaderHead

end Polyglot.Emit
