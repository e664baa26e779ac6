import Polyglot.Tree
import Polyglot.Type.Expr

/-!
# Binding arguments to parameters

A call lists its arguments by position, then by name; a variadic parameter takes the rest of the positional ones. What a call
leaves out comes from the caller's surroundings, from the declaration, or is a marker that nothing was given. `bind` yields one
`Bound` per parameter, in the order of declaration.

Arguments are known only by their types, so binding serves the resolution of names and emission alike.
-/

namespace Polyglot

/-- Where the value of a parameter comes from. -/
inductive Source where
  | argument
  | receiver
  | caller
  /-- The tree given in the declaration, by its number, with its type. -/
  | default (index : Nat) (type : Option Ty)
  | constant
  /-- Nothing is given for an optional parameter. -/
  | sentinel
deriving Repr

namespace Source

def text : Source → String
  | argument => "argument"
  | receiver => "receiver"
  | caller => "caller"
  | default _ _ => "default"
  | constant => "constant"
  | sentinel => "sentinel"

/-- Does the value come from the call itself? -/
def isActual : Source → Bool
  | argument | receiver => true
  | _ => false

end Source

/-- A parameter with what it is given. -/
structure Bound (α : Type) where
  parameter : Parameter
  /-- The type of the parameter, with the receiver's type arguments put in. -/
  type : Ty
  args : List α := []
  source : Source := .argument
  /-- The arguments have to be collected into an array. -/
  packs : Bool := false
  passing : Passing := .byValue
  /-- The value of caller information and of a constant default. -/
  constant : Option Constant := none
deriving Repr

def Bound.element {α : Type} (b : Bound α) : Ty :=
  match b.type with
  | .array e => e
  | t => t

/-- Where a call stands. -/
structure CallSite where
  place : Option Position := none
  member : String := ""
deriving Repr

def CallSite.constant (site : CallSite) : CallerInfo → Constant
  | .memberName => ⟨.string, site.member⟩
  | .filePath => ⟨.string, (site.place.map (·.file)).getD ""⟩
  | .lineNumber => ⟨.int, Text.signedDecimal ((site.place.map (·.line)).getD 0)⟩

namespace Bound

variable {α : Type}

/-- An argument given by position. The first one of an extension method that is called on a receiver is
the receiver. -/
def give (b : Bound α) (a : Argument α) (isReceiver : Bool) : Bound α :=
  { b with
    args := [a.value]
    source := if isReceiver then .receiver else b.source
    passing := if a.passing = .byValue then b.passing else a.passing }

def giveNamed (b : Bound α) (a : Argument α) : Bound α :=
  { b with
    args := b.args ++ [a.value]
    passing := if a.passing = .byValue then b.passing else a.passing }

end Bound

namespace Binding

variable {α : Type}

/-- The bounds under construction, and which of them need nothing more. -/
structure Progress (α : Type) where
  bounds : List (Bound α)
  filled : List Bool

def start (H : Hierarchy) (env : TypeEnv) (parameters : List Parameter) : Except Fault (Progress α) := do
  let bounds ← parameters.mapM fun p => do
    pure ({ parameter := p, type := ← H.put env p.type, passing := p.passing } : Bound α)
  pure { bounds, filled := parameters.map (fun _ => false) }

/-- The arguments given by position, from position `pos` on; returns what follows them. A variadic
parameter takes all that are left, and the last parameter then counts as filled. -/
def positional (missing : String → Fault) (callsReceiver : Bool) :
    List (Argument α) → Nat → Progress α → Except Fault (List (Argument α) × Progress α)
  | [], _, p => pure ([], p)
  | a :: rest, pos, p =>
    if a.name ≠ "" then pure (a :: rest, p)
    else
      match p.bounds[pos]? with
      | none => throw (missing ("#" ++ Text.decimal pos))
      | some b =>
        if b.parameter.isVariadic then
          let taken := (a :: rest).takeWhile (·.name = "")
          let b := { b with args := b.args ++ taken.map (·.value) }
          pure ((a :: rest).drop taken.length,
            { bounds := p.bounds.set pos b, filled := p.filled.set (p.bounds.length - 1) true })
        else
          let b := b.give a (b.parameter.isThis && callsReceiver && pos = 0)
          positional missing callsReceiver rest (pos + 1)
            { bounds := p.bounds.set pos b, filled := p.filled.set pos true }

def named (missing : String → Fault) : List (Argument α) → Progress α → Except Fault (Progress α)
  | [], p => pure p
  | a :: rest, p =>
    match p.bounds.findIdx? (·.parameter.name = a.name) with
    | none => throw (missing a.name)
    | some i =>
      named missing rest
        { bounds := p.bounds.modify i (·.giveNamed a), filled := p.filled.set i true }

def passesThrough (H : Hierarchy) (typeOf : α → Option Ty) (b : Bound α) : Bool :=
  match b.args with
  | [a] => (typeOf a).any (H.assignable · b.type)
  | _ => false

def supply (missing : String → Fault) (site : CallSite) (b : Bound α) : Except Fault (Bound α) :=
  let p := b.parameter
  match p.callerInfo, p.default with
  | some info, _ => pure { b with source := .caller, constant := some (site.constant info) }
  | none, some (.expression index type) => pure { b with source := .default index type }
  | none, some (.constant c) => pure { b with source := .constant, constant := some c }
  | none, none => if p.isOptional then pure { b with source := .sentinel } else throw (missing p.name)

def finish (H : Hierarchy) (typeOf : α → Option Ty) (missing : String → Fault) (site : CallSite) :
    List (Bound α) → List Bool → Except Fault (List (Bound α))
  | b :: bounds, filled :: rest => do
    let b ←
      if b.parameter.isVariadic then pure { b with packs := !passesThrough H typeOf b }
      else if filled then pure b
      else supply missing site b
    let bounds ← finish H typeOf missing site bounds rest
    pure (b :: bounds)
  | _, _ => pure []

end Binding

/-- **The binding of a call's arguments to the parameters of `method`.** A receiver is the first argument
of an extension method; for any other method its type arguments are put into the parameters' types. -/
def bind {α : Type} (H : Hierarchy) (typeOf : α → Option Ty) (method : Symbol) (receiver : Option α)
    (args : List (Argument α)) (site : CallSite) : Except Fault (List (Bound α)) := do
  let missing := Fault.unboundParameter (site.place.getD {}) method.name
  let env :=
    if method.isExtension then [] else ((receiver.bind typeOf).bind Ty.env?).getD []
  let actuals :=
    match receiver with
    | some r => if method.isExtension then { value := r } :: args else args
    | none => args
  let progress ← Binding.start H env method.parameters
  let (rest, progress) ←
    Binding.positional missing (method.isExtension && receiver.isSome) actuals 0 progress
  let progress ← Binding.named missing rest progress
  Binding.finish H typeOf missing site progress.bounds progress.filled

def bindTo {α : Type} (H : Hierarchy) (typeOf : α → Option Ty) (method : Option Symbol) (receiver : Option α)
    (args : List (Argument α)) (site : CallSite) : Except Fault (List (Bound α)) :=
  match method with
  | none => .error (.assertion "bind: nil method")
  | some m => bind H typeOf m receiver args site

def Bound.find? {α : Type} (bounds : List (Bound α)) (name : String) : Option (Bound α) :=
  bounds.find? (·.parameter.name = name)

end Polyglot
