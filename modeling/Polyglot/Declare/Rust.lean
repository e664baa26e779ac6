import Polyglot.Declare.Basic

/-!
# Declarations in Rust

A class becomes a structure that is held through a shared cell, with a block of its own methods and a block for
every interface. A constructor becomes two functions: `new` makes the object with its initial values, and `init`
runs the body. There is no inheritance between classes.
-/

namespace Polyglot.Emit

variable (r : Emitter)

/-! ## Parts of declarations -/

/-- The word before a declaration that others may use. -/
def rustVisibility (s : Symbol) : String :=
  if s.access = .public || s.access = .internal then "pub " else ""

def rustBounds (parameters : List String) : String :=
  Target.argumentList (parameters.map (· ++ ": Clone + Default + 'static"))

def rustParameters (s : Symbol) : Emit String :=
  formalParameters s.parameters fun p type name => do
    if p.passing ≠ .byValue then refusedParameter s p else pure ("mut " ++ name ++ ": " ++ type)

def withReceiver (parameters : String) : String :=
  if parameters = "" then "&mut self" else "&mut self, " ++ parameters

/-- The type that a function returns, behind its parameters. -/
def rustResult (s : Symbol) : Emit String := do
  if s.type.any (!·.isVoid) then do pure (" -> " ++ (← returnType s)) else pure ""

def rustSignature (s : Symbol) : Emit String := do
  let parameters ← rustParameters s
  let parameters := if s.isStatic || s.kind = .operator then parameters else withReceiver parameters
  let name ← symbolName s
  pure ("fn " ++ name ++ rustBounds s.typeParameters ++ "(" ++ parameters ++ ")" ++ (← rustResult s))

def storage? (m : Member) : Emit (Option String) := do
  if m.kind = .field then do pure (some (← symbolName m.symbol))
  else if m.isAuto then pure (some (backingField m.symbol))
  else pure none

/-! ## Constructors -/

def implicitConstructor (d : TypeDecl) : Symbol :=
  { kind := .constructor, name := ".ctor", container := some d.type, access := .public }

def rustFieldValues (d : TypeDecl) : Emit Unit :=
  d.members.forM fun m => do
    match ← storage? m with
    | none => pure ()
    | some field =>
      let value ← if m.symbol.isWeak then pure "Default::default()" else initialValue r m
      line (field ++ ": " ++ value ++ ",")

/-- The function that makes an object; the body of the constructor runs on it, if there is one. -/
def rustNew (d : TypeDecl) (s : Symbol) (runsBody : Bool) : Emit Unit := do
  let isValue := d.head.kind = .structDecl
  let suffix := (← read).world.overloadSuffix s
  let parameters ← rustParameters s
  let args ← s.parameters.mapM fun p => fitted p.name
  let result := if isValue then "Self" else "Rc<RefCell<Self>>"
  openBlock (rustVisibility s ++ "fn new" ++ suffix ++ "(" ++ parameters ++ ") -> " ++ result)
  let name ← declaredName d.head
  let object ← captureInline do
    openBlock name
    rustFieldValues r d
    closeBlock
  line (if isValue then "let mut this = " ++ object ++ ";"
    else "let this = Rc::new(RefCell::new(" ++ object ++ "));")
  if runsBody then
    line ((if isValue then "this" else "this.borrow_mut()") ++ ".init" ++ suffix ++ "(" ++ Text.join ", " args ++ ");")
  line "this"
  closeBlock
  endLine

def rustChain (m : Member) : Emit (List String) := do
  match m.chain with
  | none => pure []
  | some chain =>
    let (isBase, args) ← chainCall r chain
    if isBase then pure []
    else
      match chain.symbol with
      | none => unsupported chain.place "unresolved constructor chain"
      | some s => do
        pure ["self.init" ++ (← read).world.overloadSuffix s ++ "(" ++ Text.join ", " args ++ ");"]

def rustConstructor (d : TypeDecl) (m : Member) : Emit Unit := do
  let s := m.symbol
  rustNew r d s true
  blankLine
  let before ← rustChain r m
  let parameters ← rustParameters s
  let suffix := (← read).world.overloadSuffix s
  bodyBlock r ("fn init" ++ suffix ++ "(" ++ withReceiver parameters ++ ")") m.body before

/-! ## Members -/

def rustAccessor (head body : String) : Emit Unit := do
  line (head ++ " \x7b")
  indent
  line body
  outdent
  line "\x7d"

def rustProperty (m : Member) (isInherent : Bool) : Emit Unit := do
  let s := m.symbol
  let type ← declaredTypeName s.type
  let visibility := if isInherent then rustVisibility s else ""
  let getter := visibility ++ "fn " ++ Target.getter .rust s ++ "(&mut self) -> " ++ type
  let setter := visibility ++ "fn " ++ Target.setter .rust s ++ "(&mut self, mut value: " ++ type ++ ")"
  if m.isAuto then
    let field := "self." ++ backingField s
    rustAccessor getter (if isCopied s.type then field else field ++ ".clone()")
    if !s.isReadOnly || !isInherent then
      blankLine
      rustAccessor setter (field ++ " = value;")
  else
    if m.getter.isSome then bodyBlock r getter m.getter
    if m.setter.isSome then
      if m.getter.isSome then blankLine
      bodyBlock r setter m.setter

def rustMember (d : TypeDecl) (isInherent : Bool) (m : Member) : Emit Unit := do
  let s := m.symbol
  match m.kind with
  | .constructor => rustConstructor r d m
  | .property => rustProperty r m isInherent
  | .method | .operator =>
    if m.body.isNone then unsupported m.place ("abstract method " ++ s.name)
    else
      let head ← rustSignature s
      bodyBlock r ((if isInherent then rustVisibility s else "") ++ head) m.body
  | _ => pure ()

def spaced : Bool → List (Emit Unit) → Emit Unit
  | _, [] => pure ()
  | isFirst, x :: rest => do
    if !isFirst then blankLine
    x
    spaced false rest

/-! ## Types -/

def rustRefused? (d : TypeDecl) : Option String :=
  d.members.findSome? fun m =>
    let s := m.symbol
    match m.kind with
    | .event => some ("event " ++ s.name)
    | .field => if s.isStatic then some ("static field " ++ s.name) else none
    | .property =>
      if s.isStatic then some ("static property " ++ s.name)
      else if !s.parameters.isEmpty then some "indexer declaration"
      else none
    | .constructor => if s.isStatic then some "static constructor" else none
    | _ => none

def implements (w : World) (interface : Ty) (s : Symbol) : Bool :=
  !s.isStatic && (w.membersOf interface).any fun m => m.name = s.name && m.kind = s.kind

def interfaceNames (w : World) (interfaces : List Ty) (d : TypeDecl) : List String :=
  (d.members.filter fun m => interfaces.any fun t => implements w t m.symbol).map (·.symbol.name)

def rustFieldLine (m : Member) : Emit Unit := do
  match ← storage? m with
  | none => pure ()
  | some field =>
    let s := m.symbol
    let isField := m.kind = .field
    let type ← declaredTypeName s.type (isField && s.isWeak)
    line ((if isField then rustVisibility s else "") ++ field ++ ": " ++ type ++ ",")

def rustStruct (name : String) : Emit Unit := do
  let scene ← read
  let d := scene.decl
  let parameters ← typeParameterList
  let bounds := rustBounds d.head.params
  line (if d.head.kind = .structDecl then "#[derive(Clone, Default)]" else "#[derive(Default)]")
  openBlock (rustVisibility d.symbol ++ "struct " ++ name ++ parameters)
  d.members.forM rustFieldLine
  closeBlock
  endLine
  blankLine
  let implemented := interfaceNames scene.world scene.interfaces d
  let own := d.members.filter fun m => m.kind ≠ .field && !implemented.contains m.symbol.name
  let made := if (d.membersOf [.constructor]).isEmpty then [rustNew r d (implicitConstructor d) false] else []
  openBlock ("impl" ++ bounds ++ " " ++ name ++ parameters)
  spaced true (made ++ own.map fun m => inMember m (rustMember r d true m))
  closeBlock
  endLine
  scene.interfaces.forM fun t => do
    let interface ← fullName (some t)
    blankLine
    openBlock ("impl" ++ bounds ++ " " ++ interface ++ " for " ++ name ++ parameters)
    let members := d.members.filter fun m => m.kind ≠ .field && implements scene.world t m.symbol
    spaced true (members.map fun m => inMember m (rustMember r d false m))
    closeBlock
    endLine

def rustTraitMember (m : Member) : Emit Unit := do
  let s := m.symbol
  match m.kind with
  | .method => do line ((← rustSignature s) ++ ";")
  | .property =>
    let type ← declaredTypeName s.type
    line ("fn " ++ Target.getter .rust s ++ "(&mut self) -> " ++ type ++ ";")
    if !s.isReadOnly then line ("fn " ++ Target.setter .rust s ++ "(&mut self, value: " ++ type ++ ");")
  | _ => unsupported m.place ("interface member " ++ s.name)

def rustTrait (name : String) : Emit Unit := do
  let scene ← read
  let supers ← scene.interfaces.mapM fun t => fullName (some t)
  let supers := if supers.isEmpty then "" else ": " ++ Text.join " + " supers
  openBlock (rustVisibility scene.decl.symbol ++ "trait " ++ name ++ (← typeParameterList) ++ supers)
  scene.decl.members.forM fun m => inMember m (rustTraitMember m)
  closeBlock
  endLine

def rustEnum (name : String) : Emit Unit := do
  let d ← decl
  line "#[derive(Clone, Copy, PartialEq, Eq, Debug, Default)]"
  openBlock (rustVisibility d.symbol ++ "enum " ++ name)
  let values := d.numbered.map fun (value, number) => value ++ " = " ++ number ++ ","
  if !values.isEmpty then line "#[default]"
  lines values
  closeBlock
  endLine

def rustDeclaration : Emit Unit := do
  let scene ← read
  let d := scene.decl
  let name ← declaredName d.head
  match d.head.kind with
  | .enumDecl => rustEnum name
  | .delegateDecl =>
    let invoke ← invokeOf
    let types ← invoke.parameters.mapM fun p => usedTypeName (some p.type)
    let function := "dyn Fn(" ++ Text.join ", " types ++ ")" ++ (← rustResult invoke)
    line (rustVisibility d.symbol ++ "type " ++ name ++ (← typeParameterList) ++ " = Rc<" ++ function ++ ">;")
  | .interfaceDecl => rustTrait name
  | _ =>
    if scene.baseClass.isSome then unsupported d.place "class inheritance"
    else
      match rustRefused? d with
      | some what => unsupported d.place what
      | none => rustStruct r name

def rustImport (i : Import) : Emit (Option String) := do
  match Target.external? .rust i.head.key with
  | some _ => pure none
  | none =>
    let module := Text.dropTail ".rs" (← pathOf i.head .source)
    pure (some ("use crate::" ++ Text.replaceChar '/' "::" module ++ "::" ++ (← declaredName i.head) ++ ";"))

def rustHead : Emit Unit := do
  line "#![allow(non_snake_case, unused_imports, unused_mut, dead_code)]"
  blankLine
  line "use std::cell::RefCell;"
  line "use std::rc::\x7bRc, Weak\x7d;"
  let imported ← (← imports).mapM rustImport
  let uses := imported.filterMap id ++ (← requirements)
  if !uses.isEmpty then blankLine
  lines uses
  blankLine

def rustFile : Emit Unit := file (rustDeclaration r) rustHead

end Polyglot.Emit
