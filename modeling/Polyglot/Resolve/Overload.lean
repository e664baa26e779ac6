import Polyglot.Binding
import Polyglot.Resolve.World
import Polyglot.Type.Conversion

/-!
# Choosing among overloads

A call may have several candidates. Each one that the arguments can be bound to is scored by how well
the arguments fit its parameters; the best wins, and of equal ones the first declared.
-/

namespace Polyglot

/-- A value at a call, by its place: the receiver or the argument with a number. -/
inductive Slot where
  | receiver
  | arg (index : Nat)
deriving Repr, DecidableEq

/-- What a call looks like to its candidates: the types of receiver and arguments. -/
structure CallShape where
  /-- The receiver, if there is one, with its type, if that is known. -/
  receiver : Option (Option Ty) := none
  args : List (Argument (Option Ty)) := []
  place : Position := {}

namespace CallShape

def slots (c : CallShape) : List (Argument Slot) :=
  c.args.zipIdx.map fun (a, i) => { value := .arg i, name := a.name, passing := a.passing }

def typeOf (c : CallShape) : Slot → Option Ty
  | .receiver => c.receiver.getD none
  | .arg i => (c.args[i]?).bind (·.value)

def env (c : CallShape) : TypeEnv := ((c.receiver.getD none).bind Ty.env?).getD []

def bindTo (w : World) (c : CallShape) (method : Symbol) : Except Fault (List (Bound Slot)) :=
  bind w.hierarchy c.typeOf method (c.receiver.map fun _ => .receiver) c.slots { place := some c.place }

end CallShape

/-- The sum of how well each of some arguments fits a type; nothing when one does not. -/
def fitAll? (H : Hierarchy) (target : Ty) : List (Option Ty) → Option Nat
  | [] => some 0
  | t :: ts =>
    match fit? H t (some target), fitAll? H target ts with
    | some a, some b => some (a + b)
    | _, _ => none

/-- How well a binding fits; nothing when it does not. Parameter types are seen through the receiver's
type arguments once more. -/
def score? (w : World) (c : CallShape) : List (Bound Slot) → Except Fault (Option Nat)
  | [] => pure (some 0)
  | b :: bounds => do
    let target ←
      if b.parameter.isVariadic && b.packs then pure b.element else w.hierarchy.put c.env b.type
    let own := if b.source.isActual then fitAll? w.hierarchy target (b.args.map c.typeOf) else some 0
    let rest ← score? w c bounds
    pure (match own, rest with
      | some a, some b => some (a + b)
      | _, _ => none)

def candidateScore? (w : World) (c : CallShape) (method : Symbol) : Except Fault (Option Nat) :=
  match c.bindTo w method with
  | .ok bounds => score? w c bounds
  | .error _ => pure none

/-- **The best of some candidates for a call**: highest score, first declared. -/
def overload? (w : World) (c : CallShape) : List Symbol → Option (Symbol × Nat) → Except Fault (Option Symbol)
  | [], best => pure (best.map (·.1))
  | s :: rest, best => do
    let score ← candidateScore? w c s
    let best :=
      match score, best with
      | some n, some (_, m) => if m < n then some (s, n) else best
      | some n, none => some (s, n)
      | none, _ => best
    overload? w c rest best

def boundTypes (typeOf : Slot → Option Ty) (b : Bound Slot) : List (Option Ty) :=
  match b.source with
  | .default _ type => [type]
  | _ => b.args.map typeOf

/-- The type arguments of a generic method: those that the call gives, then the types of the arguments
bound to parameters whose type is just a type parameter. -/
def inferTypeArgs (method : Symbol) (given : List Ty) (typeOf : Slot → Option Ty)
    (bounds : List (Bound Slot)) : TypeEnv :=
  bounds.foldl (fun env b =>
    match b.type, boundTypes typeOf b with
    | .param name, [some t] => if (env.get? name).isSome || t.isNull then env else env ++ [(name, t)]
    | _, _ => env) (TypeEnv.ofParams method.typeParameters given)

def TypeEnv.over (first second : TypeEnv) : TypeEnv := first ++ second

end Polyglot
