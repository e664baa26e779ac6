import Polyglot.Document
import Polyglot.Resolve.World

/-!
# Scopes

While a body is resolved, the locals in reach are kept in a stack of frames, one per block, loop body,
branch, handler or lambda around the current place. What a `return` is converted to is kept beside them.
-/

namespace Polyglot

/-- Where a body stands: the declarations in reach, the type around it, the type parameters that may be
named and the namespace. A default value stands in no type. -/
structure Surroundings where
  world : World
  self : Option Ty := none
  params : List String := []
  space : String := ""

/-- The locals in reach. -/
structure Locals where
  /-- The frames of locals, innermost first; within a frame the latest declaration counts. -/
  frames : List (List (String × Symbol)) := []
  returns : Option Ty := none

/-- Resolution: reads its surroundings, keeps the locals, stops at the first fault. -/
abbrev Resolve := ReaderT Surroundings (StateT Locals (Except Fault))

namespace Locals

def find? (l : Locals) (name : String) : Option Symbol := l.frames.findSome? (·.lookup name)

def push (l : Locals) : Locals := { l with frames := [] :: l.frames }

def pop (l : Locals) : Locals := { l with frames := l.frames.drop 1 }

def declare (l : Locals) (s : Symbol) : Locals :=
  match l.frames with
  | [] => { l with frames := [[(s.name, s)]] }
  | frame :: rest => { l with frames := ((s.name, s) :: frame) :: rest }

end Locals

namespace Resolve

def world : Resolve World := do pure (← read).world

def crash {α : Type} : Resolve α := throw (.crash none)

def fail {α : Type} (line : Int) (p : Problem) : Resolve α := do throw ((← world).problem line p)

def nested {α : Type} (x : Resolve α) : Resolve α := do
  modify Locals.push
  let a ← x
  modify Locals.pop
  pure a

def declare (s : Symbol) : Resolve Unit := modify (·.declare s)

def local? (name : String) : Resolve (Option Symbol) := do pure ((← get).find? name)

def readType (text : String) (line : Int) : Resolve Ty := do
  let s ← read
  let w := s.world
  TypeExpr.readAt
    { index := w.index, hierarchy := w.hierarchy, usings := w.usings, params := s.params, space := s.space }
    (w.place line 0) text

def put (env : TypeEnv) (t : Ty) : Resolve Ty := do
  (← world).hierarchy.put env t

def putOpt (env : TypeEnv) : Option Ty → Resolve (Option Ty)
  | none => pure none
  | some t => do pure (some (← put env t))

def markOf (d : Draft) : Resolve Mark := do
  pure {
    place := (← world).place d.line d.column
    name := d.name
    op := d.op
    isPostfix := d.isPostfix }

def typeNamed? (name : String) : Resolve (Option Ty) := do
  let s ← read
  if s.params.contains name then pure (some (.param name))
  else
    match Ty.alias? name with
    | some .void | none => pure (s.world.find? name 0 s.space)
    | some t => pure (some t)

end Resolve

/-- The mark with the type of the node and the type that its context expects; a context that expects
nothing, or no value, leaves the type as it is. -/
def Mark.typed (m : Mark) (static expected : Option Ty) : Mark :=
  match static, expected with
  | none, none => m
  | _, none | _, some .void => { m with static, converted := static }
  | _, some t => { m with static, converted := some t }

end Polyglot
