import Polyglot.Compilation
import Polyglot.Emit.Imports
import Polyglot.Emit.Temporaries
import Polyglot.Emit.Writer
import Polyglot.Target.Cast
import Polyglot.Target.Literal
import Polyglot.Target.Path
import Polyglot.Template.Table

/-!
# Emission

One file is emitted at a time. `Emit` reads a `Scene`, what the file is emitted from, and keeps a `Sheet`, what has been written
and noted so far, with the member and the handlers around the current place. Text inside an expression (the body of a lambda)
is written into a captured buffer.
-/

namespace Polyglot

/-- What a file is emitted from. -/
structure Scene where
  target : Target
  world : World
  templates : Templates
  decl : TypeDecl
  artifact : Artifact

/-- What has been written and noted, and what is around the current place. -/
structure Sheet where
  writer : Writer
  imports : Imports
  temporaries : Temporaries := {}
  accessSection : String := ""
  /-- The place that is rendered is going to be changed. -/
  mutating : Bool := false
  requirements : List String := []
  remarks : List Diagnostic := []
  /-- The member that is emitted. -/
  member : Option Member := none
  inConstructor : Bool := false
  /-- The exception variables of the handlers around the current place, innermost first. -/
  handlers : List String := []

/-- A place inside a member. -/
def CallSite.inside (member : Option Member) (place : Position) : CallSite where
  place := some place
  member := (member.map (·.symbol.name)).getD ""

/-- Emission: it may fail, and keeps its sheet. -/
abbrev Emit := ReaderT Scene (ExceptT Fault (StateM Sheet))

def Scene.blank (s : Scene) : Sheet where
  writer := Writer.empty s.target.dialect.indent
  imports := Imports.empty (some s.decl.type)

namespace Emit

def runOn {α : Type} (x : Emit α) (s : Scene) : Except Fault α × Sheet := (x.run s).run.run s.blank

/-! ## The scene -/

def target : Emit Target := do pure (← read).target

def dialect : Emit Dialect := do pure (← target).dialect

def index : Emit TypeIndex := do pure (← read).world.index

def unsupported {α : Type} (place : Position) (what : String) : Emit α := do
  throw (Fault.unsupported (← target).name place what)

/-- Something is missing that was taken for granted. -/
def crash {α : Type} : Emit α := throw (.crash none)

def ofExcept {α : Type} : Except Fault α → Emit α
  | .ok a => pure a
  | .error f => throw f

/-! ## Notes -/

def noteAs (full : Bool) (t : Option Ty) : Emit Unit :=
  match t with
  | none => pure ()
  | some t => modify fun s => { s with imports := s.imports.note full t }

def noteFull (t : Option Ty) : Emit Unit := noteAs true t

/-- Notes a type: values are held inline, so that their definition is needed. -/
def note (t : Option Ty) : Emit Unit := noteAs (t.any (·.isValueType)) t

/-- The name of a type, which is not noted. -/
def nameOf (t : Option Ty) (own : Ownership) : Emit String := do
  pure ((← target).typeNameOpt (← index) own t)

/-- **The name of a type**, which is noted. -/
def typeName (t : Option Ty) (own : Ownership := .value) : Emit String := do
  note t
  nameOf t own

def fullName (t : Option Ty) : Emit String := do
  noteFull t
  nameOf t .value

def declaredTypeName (t : Option Ty) (isWeak : Bool := false) : Emit String := do
  typeName t ((← target).ownership t true isWeak)

def usedTypeName (t : Option Ty) : Emit String := do
  typeName t ((← target).ownership t false false)

def argumentName (t : Ty) : Emit String := do
  noteFull (some t)
  pure ((← target).argumentName (← index) t)

def require (line : String) : Emit Unit :=
  modify fun s => { s with requirements := if s.requirements.contains line then s.requirements else line :: s.requirements }

def requirements : Emit (List String) := do pure (Text.sorted (← get).requirements)

def remark (e : Expr) : Emit Unit :=
  modify fun s => { s with remarks := s.remarks ++ [Diagnostic.unresolved e.place e.kind.text e.mark.name] }

def temporary (hint : String) : Emit String :=
  modifyGet fun s =>
    let (name, temporaries) := s.temporaries.next ("__" ++ hint)
    (name, { s with temporaries })

/-- Something rendered as the place of a change. Afterwards nothing is. -/
def mutably {α : Type} (x : Emit α) : Emit α := fun scene sheet =>
  let (outcome, sheet) := x scene { sheet with mutating := true }
  (outcome, { sheet with mutating := false })

/-! ## Around the current place -/

/-- Something emitted inside a member. Whatever happens there, the member around it is put back. -/
def inMember {α : Type} (m : Member) (x : Emit α) : Emit α := fun scene sheet =>
  let (outcome, after) := x scene { sheet with member := some m, inConstructor := m.kind = .constructor }
  (outcome, { after with member := sheet.member, inConstructor := sheet.inConstructor })

/-- Something emitted inside a handler: its variable is pushed, and whatever happens there, the last one is popped. -/
def inHandler {α : Type} (name : String) (x : Emit α) : Emit α := fun scene sheet =>
  let (outcome, after) := x scene { sheet with handlers := name :: sheet.handlers }
  (outcome, { after with handlers := after.handlers.tail })

/-! ## Writing -/

def onWriter (f : Writer → Writer) : Emit Unit := modify fun s => { s with writer := f s.writer }

def write (s : String) : Emit Unit := onWriter (·.write s)

def line (s : String) : Emit Unit := onWriter (·.writeLine s)

def lines (ls : List String) : Emit Unit := ls.forM line

def blankLine : Emit Unit := onWriter Writer.blankLine

def endLine : Emit Unit := onWriter Writer.endLine

def indent : Emit Unit := onWriter Writer.indent

def outdent : Emit Unit := onWriter Writer.outdent

/-- **What something writes**, taken out of a buffer of its own. The buffers below are left as they were,
also when it ends in a fault. -/
def capture (x : Emit Unit) : Emit String := fun scene sheet =>
  let depth := sheet.writer.depth
  let (outcome, sheet) := x scene { sheet with writer := sheet.writer.push }
  let (outcome, writer) := sheet.writer.settle Writer.unbalanced depth outcome
  (outcome, { sheet with writer })

def captureInline (x : Emit Unit) : Emit String := do pure (Writer.inlined (← capture x))

/-! ## Blocks -/

def openBlock (head : String) : Emit Unit := do
  if head = "" then line "\x7b"
  else if (← dialect).braceOnOwnLine then
    line head
    line "\x7b"
  else line (head ++ " \x7b")
  indent

/-- Closes a block. The line goes on, since another clause may follow. -/
def closeBlock : Emit Unit := do
  outdent
  write "\x7d"

def continueBlock (head : String) : Emit Unit := do
  if (← dialect).braceOnOwnLine then
    endLine
    openBlock head
  else
    line (" " ++ head ++ " \x7b")
    indent

end Emit

end Polyglot
