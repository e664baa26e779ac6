import Polyglot.Yaml.Read

/-!
# Compilation documents

What a document declares, before any name in it is resolved: types with their members, and the bodies of members as drafts of
trees. A draft is a record of everything that a node of any kind may hold; its `kind` says which of it counts.

Types are listed under `types`, which are emitted, and `externals`, which are only referred to.
-/

namespace Polyglot

/-- A parameter as it is written; `α` is the type of its default value's draft. -/
structure ParameterDraft (α : Type) where
  name : String := ""
  type : String := ""
  passing : String := ""
  isVariadic : Bool := false
  isOptional : Bool := false
  isThis : Bool := false
  default : Option α := none
  callerInfo : String := ""
deriving Repr

structure HandlerDraft (α : Type) where
  type : String := ""
  name : String := ""
  body : Option α := none
deriving Repr

/-- A node as it is written. A null inside a list is kept as `none`. -/
structure Draft where
  kind : String := ""
  name : String := ""
  op : String := ""
  isPostfix : Bool := false
  literal : Option Yaml.Node := none
  type : String := ""
  typeArgs : List String := []
  target : Option Draft := none
  left : Option Draft := none
  right : Option Draft := none
  args : List (Option Draft) := []
  argName : String := ""
  passing : String := ""
  elements : List (Option Draft) := []
  cond : Option Draft := none
  yes : Option Draft := none
  no : Option Draft := none
  init : List (Option Draft) := []
  post : List (Option Draft) := []
  body : Option Draft := none
  statements : List (Option Draft) := []
  value : Option Draft := none
  parameters : List (Option (ParameterDraft Draft)) := []
  handlers : List (Option (HandlerDraft Draft)) := []
  finalizer : Option Draft := none
  line : Int := 0
  column : Int := 0
deriving Repr

structure ChainDraft where
  kind : String := ""
  args : List (Option Draft) := []
deriving Repr

structure MemberDraft where
  kind : String := ""
  id : String := ""
  name : String := ""
  type : String := ""
  returns : String := ""
  access : String := ""
  rename : String := ""
  isStatic : Bool := false
  isVirtual : Bool := false
  isAbstract : Bool := false
  isOverride : Bool := false
  isWeak : Bool := false
  isReadOnly : Bool := false
  isExtension : Bool := false
  typeParameters : List String := []
  parameters : List (Option (ParameterDraft Draft)) := []
  initializer : Option Draft := none
  body : Option Draft := none
  getter : Option Draft := none
  setter : Option Draft := none
  chain : Option ChainDraft := none
  line : Int := 0
deriving Repr

/-- A named value of an enumeration, as it is written; an empty value is none. -/
structure EnumValueDraft where
  name : String := ""
  value : String := ""
deriving Repr, DecidableEq

/-- A type as a document declares it. -/
structure TypeDraft where
  kind : String := ""
  name : String := ""
  typeParameters : List String := []
  base : String := ""
  interfaces : List String := []
  access : String := ""
  rename : String := ""
  values : List EnumValueDraft := []
  invoke : Option MemberDraft := none
  members : List (Option MemberDraft) := []
  line : Int := 0
deriving Repr

structure Document where
  usings : List String := []
  types : List (Option TypeDraft) := []
  externals : List (Option TypeDraft) := []
deriving Repr

/-! ## Reading -/

open Yaml (Reading)
open Yaml.Node (Record)

namespace ParameterDraft

def read {α : Type} (draft : Yaml.Node → Reading α) (n : Yaml.Node) : Reading (ParameterDraft α) := do
  let r ← n.record
  pure {
    name := ← r.text "name"
    type := ← r.text "type"
    passing := ← r.text "ref"
    isVariadic := ← r.flag "params"
    isOptional := ← r.flag "optional"
    isThis := ← r.flag "this"
    default := ← r.option "default" draft
    callerInfo := ← r.text "callerInfo" }

end ParameterDraft

namespace HandlerDraft

def read {α : Type} (draft : Yaml.Node → Reading α) (n : Yaml.Node) : Reading (HandlerDraft α) := do
  let r ← n.record
  pure {
    type := ← r.text "type"
    name := ← r.text "name"
    body := ← r.option "body" draft }

end HandlerDraft

namespace Draft

/-- A node of a record; `draft` reads the nodes inside it. -/
def ofRecord (draft : Yaml.Node → Reading Draft) (mark : Yaml.Mark) (r : Record) : Reading Draft := do
  let line ← r.number "line"
  let column ← r.number "column"
  pure {
    kind := ← r.text "kind"
    name := ← r.text "name"
    op := ← r.text "op"
    isPostfix := ← r.flag "postfix"
    literal := r.find? "lit"
    type := ← r.text "type"
    typeArgs := ← r.texts "typeArgs"
    target := ← r.option "target" draft
    left := ← r.option "left" draft
    right := ← r.option "right" draft
    args := ← r.options "args" draft
    argName := ← r.text "argName"
    passing := ← r.text "ref"
    elements := ← r.options "elements" draft
    cond := ← r.option "cond" draft
    yes := ← r.option "then" draft
    no := ← r.option "else" draft
    init := ← r.options "init" draft
    post := ← r.options "post" draft
    body := ← r.option "body" draft
    statements := ← r.options "statements" draft
    value := ← r.option "value" draft
    parameters := ← r.options "parameters" (ParameterDraft.read draft)
    handlers := ← r.options "catches" (HandlerDraft.read draft)
    finalizer := ← r.option "finally" draft
    line := if line = 0 then mark.line else line
    column := if line = 0 then mark.column else column }

/-- A node, as far as a number of levels. A record with a line of its own keeps it. -/
def readWithin : Nat → Yaml.Node → Reading Draft
  | 0, _ => Reading.wrong {}
  | fuel + 1, n =>
    match n with
    | .scalar mark _ _ =>
      pure { kind := "literal", literal := some n, line := mark.line, column := mark.column }
    | .sequence mark items => do
      let statements ← items.mapM (Yaml.Node.option (readWithin fuel))
      pure { kind := "block", statements, line := mark.line, column := mark.column }
    | .mapping mark _ => do ofRecord (readWithin fuel) mark (← n.record)

end Draft

namespace Yaml.Node

mutual

def depth : Node → Nat
  | .scalar _ _ _ => 1
  | .sequence _ items => depthItems items + 1
  | .mapping _ entries => depthEntries entries + 1

def depthItems : List Node → Nat
  | [] => 0
  | n :: ns => max n.depth (depthItems ns)

def depthEntries : List (Node × Node) → Nat
  | [] => 0
  | (_, v) :: es => max v.depth (depthEntries es)

end

end Yaml.Node

def Draft.read (n : Yaml.Node) : Reading Draft := Draft.readWithin (n.depth + 1) n

namespace MemberDraft

def readChain (n : Yaml.Node) : Reading ChainDraft := do
  let r ← n.record
  pure { kind := ← r.text "kind", args := ← r.options "args" Draft.read }

def read (n : Yaml.Node) : Reading MemberDraft := do
  let r ← n.record
  pure {
    kind := ← r.text "kind"
    id := ← r.text "id"
    name := ← r.text "name"
    type := ← r.text "type"
    returns := ← r.text "returns"
    access := ← r.text "access"
    rename := ← r.text "rename"
    isStatic := ← r.flag "static"
    isVirtual := ← r.flag "virtual"
    isAbstract := ← r.flag "abstract"
    isOverride := ← r.flag "override"
    isWeak := ← r.flag "weak"
    isReadOnly := ← r.flag "readonly"
    isExtension := ← r.flag "extension"
    typeParameters := ← r.texts "typeParameters"
    parameters := ← r.options "parameters" (ParameterDraft.read Draft.read)
    initializer := ← r.option "initializer" Draft.read
    body := ← r.option "body" Draft.read
    getter := ← r.option "get" Draft.read
    setter := ← r.option "set" Draft.read
    chain := ← r.option "chain" readChain
    line := n.mark.line }

end MemberDraft

namespace TypeDraft

def readValue (n : Yaml.Node) : Reading EnumValueDraft := do
  let r ← n.record
  pure { name := ← r.text "name", value := ← r.text "value" }

def read (n : Yaml.Node) : Reading TypeDraft := do
  let r ← n.record
  pure {
    kind := ← r.text "kind"
    name := ← r.text "name"
    typeParameters := ← r.texts "typeParameters"
    base := ← r.text "base"
    interfaces := ← r.texts "interfaces"
    access := ← r.text "access"
    rename := ← r.text "rename"
    values := (← r.options "values" readValue).filterMap id
    invoke := ← r.option "invoke" MemberDraft.read
    members := ← r.options "members" MemberDraft.read
    line := n.mark.line }

end TypeDraft

namespace Document

def readNode (n : Yaml.Node) : Reading Document := do
  let r ← n.record
  pure {
    usings := ← r.texts "usings"
    types := ← r.options "types" TypeDraft.read
    externals := ← r.options "externals" TypeDraft.read }

/-- **The document of a text.** A text without a document declares nothing. -/
def read (text : String) : Except Fault Document := do
  pure ((← Yaml.read readNode text).getD {})

end Document

end Polyglot
