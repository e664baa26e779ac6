import Polyglot.Emit.Knot

/-!
# Declarations

What the declarations of all targets share. A declaration is written into a buffer of its own first. Only then is it known which
types it mentions, so the head of the file is written afterwards and the declaration is put behind it.
-/

namespace Polyglot

/-! ## Facts about declarations -/

/-- The word for the access of a declaration; `internal` is spelled as given. -/
def accessWord (internal : String) (s : Symbol) : String :=
  if s.access = .internal then internal else s.access.text

namespace TypeDecl

def isGeneric (d : TypeDecl) : Bool := d.head.arity > 0

/-- The namespace that the declaration is emitted into, as the document writes it. -/
def space (d : TypeDecl) : String := Target.declaredSpace d.head

def membersOf (d : TypeDecl) (kinds : List MemberKind) : List Member := d.members.filter (kinds.contains ·.kind)

def withPrevious (d : TypeDecl) : List (Option Member × Member) := (none :: d.members.map some).zip d.members

end TypeDecl

def isSeparated (previous : Option Member) (m : Member) : Bool :=
  previous.any fun p => m.kind ≠ .field || p.kind ≠ .field

def overloadKey? (m : Member) : Option String :=
  match m.kind with
  | .method => some m.symbol.name
  | .constructor => some ".ctor"
  | _ => none

def firstRepeated? : (seen : List String) → List String → Option String
  | _, [] => none
  | seen, name :: rest => if seen.contains name then some name else firstRepeated? (name :: seen) rest

def TypeDecl.overloaded? (d : TypeDecl) : Option String := firstRepeated? [] (d.members.filterMap overloadKey?)

/-- **The values of an enumeration with their numbers.** One without a number follows the one before it; a number
that is not a decimal of 64 bits does not count. -/
def numberedFrom : (next : Int) → List EnumMember → List (String × String)
  | _, [] => []
  | next, m :: rest =>
    let text := m.value.getD (Text.signedDecimal next)
    (m.name, text) :: numberedFrom (Int.bmod ((Text.int64? text).getD next + 1) (2 ^ 64)) rest

def TypeDecl.numbered (d : TypeDecl) : List (String × String) := numberedFrom 0 d.values

namespace Emit

/-! ## Files -/

/-- A file: the head is written when the declaration is known, and the declaration stands behind it. -/
def file (declaration head : Emit Unit) : Emit Unit := do
  let text ← capture declaration
  head
  onWriter (·.writeRaw text)

def imports : Emit (List Import) := do pure (← get).imports.entries

def decl : Emit TypeDecl := do pure (← read).decl

def declaredName (h : TypeHead) : Emit String := do pure ((← target).declaredName (← index) h)

def pathOf (h : TypeHead) (kind : ArtifactKind) : Emit String := do
  pure ((← target).artifactPath (← index) h kind)

def typeParameterList : Emit String := do pure (Target.argumentList (← decl).head.params)

/-! ## Members -/

variable (r : Emitter)

/-- A head with a body in braces, and lines before the statements of the body. -/
def bodyBlock (head : String) (body : Option Stmt) (before : List String := []) : Emit Unit := do
  openBlock head
  lines before
  r.body body
  closeBlock
  endLine

def lineBlock (head : String) (inside : List String) : Emit Unit := do
  openBlock head
  lines inside
  closeBlock
  endLine

def formalParameters (parameters : List Parameter) (write : Parameter → String → String → Emit String) :
    Emit String := do
  let texts ← parameters.mapM fun p => do
    let name ← fitted p.name
    let type ← usedTypeName (some p.type)
    write p type name
  pure (Text.join ", " texts)

/-- A parameter that is passed by reference, in a target without such parameters. -/
def refusedParameter (owner : Symbol) (p : Parameter) : Emit String :=
  unsupported {} ("by-reference parameter " ++ p.name ++ " of " ++ owner.name)

def parameterDefault (p : Parameter) : Emit (Option String) := do
  match p.default with
  | some (.constant c) => do pure (some (← literal c (some p.type)))
  | some (.expression i _) => do pure (some (← r.value (← read).world.defaults[i]?).text)
  | none =>
    if p.isOptional || p.callerInfo.isSome then do pure (some (← defaultValue (some p.type))) else pure none

def returnType (s : Symbol) : Emit String := declaredTypeName (some (s.type.getD .void))

/-- The signature of the declared delegate; a delegate without one is a crash. -/
def invokeOf : Emit Symbol := do
  match (← decl).invoke with
  | some s => pure s
  | none => crash

def initialValue (m : Member) : Emit String := do
  match m.initializer with
  | none => defaultValue m.symbol.type
  | some _ => inMember m do pure (← r.value m.initializer).text

/-- The call of another constructor: whether it is one of the base class, and its arguments. -/
def chainCall (chain : Expr) : Emit (Bool × List String) := do
  let (isBase, args) := match chain.form with
    | .call callee _ args => (callee.kind = .base, optional args)
    | _ => (true, [])
  match chain.symbol with
  | none =>
    remark chain
    pure (isBase, ← plainArguments r args)
  | some s => do pure (isBase, ← arguments r s none args chain.place)

def separatedMembers (declare : Member → Emit Unit) : Emit Unit := do
  (← decl).withPrevious.forM fun (previous, m) => do
    if isSeparated previous m then blankLine
    inMember m (declare m)

end Emit

end Polyglot
