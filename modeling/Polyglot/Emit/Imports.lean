import Polyglot.Type.Index

/-!
# The types that a unit refers to

While a unit is emitted it notes the types it mentions. A type that is held by value, is made, or is an
argument of another type is needed in full; of any other its name is enough. A unit does not import
itself. Once noted, a type stays, and once needed in full, it stays so.
-/

namespace Polyglot

structure Import where
  head : TypeHead
  /-- Is its definition needed, and not its name alone? -/
  full : Bool
deriving Repr, DecidableEq

structure Imports where
  /-- The key of the unit's own type; empty: none. -/
  self : String := ""
  rows : List (String × Import) := []
deriving Repr

namespace Imports

def empty (self : Option Ty) : Imports := { self := (self.map (·.definitionKey)).getD "" }

def noteHead (i : Imports) (h : TypeHead) (full : Bool) : Imports :=
  let key := h.key
  if key = i.self then i
  else
    match i.rows.lookup key with
    | some e => { i with rows := assocSet key { e with full := e.full || full } i.rows }
    | none => { i with rows := assocSet key { head := h, full } i.rows }

mutual

/-- **Notes a type.** Arguments are needed in full. -/
def note (i : Imports) (full : Bool) : Ty → Imports
  | .array e => note i full e
  | .named h => i.noteHead h full
  | .closed h args _ _ => (noteAll i args).noteHead h full
  | _ => i

def noteAll (i : Imports) : List Ty → Imports
  | [] => i
  | t :: ts => noteAll (note i true t) ts

end

def find? (i : Imports) (t : Ty) : Option Import := i.rows.lookup t.definitionKey

/-- **The types noted**, by key. -/
def entries (i : Imports) : List Import :=
  (i.rows.mergeSort (fun a b => !Text.before b.1 a.1)).map (·.2)

def size (i : Imports) : Nat := i.rows.length

end Imports

end Polyglot
