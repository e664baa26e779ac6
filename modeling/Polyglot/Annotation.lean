import Polyglot.Fault
import Polyglot.Symbol

/-!
# Annotations of numbered nodes

Facts about nodes that are kept beside a tree, by the number of the node: the symbol it means, its own type and
the one that its place expects, its value, and the symbol it declares. They are written until they are sealed;
writing after that is a crash that says so.
-/

namespace Polyglot

structure Annotation where
  symbol : Option Symbol := none
  static : Option Ty := none
  converted : Option Ty := none
  /-- The value that was found for the node. -/
  constant : Option Constant := none
  /-- The value that the node spells. -/
  literal : Option Constant := none
  declares : Option Symbol := none

structure Annotations where
  rows : List (Nat × Annotation) := []
  isSealed : Bool := false

namespace Annotations

def get (a : Annotations) (node : Nat) : Annotation := (a.rows.lookup node).getD {}

def set (a : Annotations) (node : Nat) (row : Annotation) : Annotations :=
  { a with rows := (node, row) :: a.rows.filter (·.1 ≠ node) }

def update (a : Annotations) (node : Nat) (f : Annotation → Annotation) : Except Fault Annotations :=
  if a.isSealed then .error (.crash (some "oracle annotations are frozen"))
  else .ok (a.set node (f (a.get node)))

def freeze (a : Annotations) : Annotations := { a with isSealed := true }

def setSymbol (a : Annotations) (node : Nat) (symbol : Option Symbol) : Except Fault Annotations :=
  a.update node ({ · with symbol })

/-- Notes the type of a node, and the one that its place expects; without one it stays the same. -/
def setType (a : Annotations) (node : Nat) (static converted : Option Ty) : Except Fault Annotations :=
  a.update node ({ · with static, converted := converted.or static })

def setConverted (a : Annotations) (node : Nat) (converted : Option Ty) : Except Fault Annotations :=
  a.update node ({ · with converted })

def setConstant (a : Annotations) (node : Nat) (c : Constant) : Except Fault Annotations :=
  a.update node ({ · with constant := some c })

def setDeclared (a : Annotations) (node : Nat) (declares : Option Symbol) : Except Fault Annotations :=
  a.update node ({ · with declares })

/-- The node becomes a literal. This changes the node and not what is noted about it. -/
def setLiteral (a : Annotations) (node : Nat) (c : Constant) : Annotations :=
  a.set node { a.get node with literal := some c }

/-- **The value of a node**: what was noted, or what it spells. -/
def constant? (a : Annotations) (node : Nat) : Option Constant :=
  let row := a.get node
  row.constant.or row.literal

end Annotations

end Polyglot
