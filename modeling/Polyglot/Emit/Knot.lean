import Polyglot.Emit.Expr
import Polyglot.Emit.Stmt

/-!
# Emission of whole trees

The functions that emit one construct each are tied together here. The parts of a node have fewer levels than
the node, and the default value of a parameter only mentions members that were declared before it, so the
levels of all trees in reach bound how deep emission goes.
-/

namespace Polyglot

/-- The emission of trees that are not deeper than a number of levels. -/
def Emitter.within : Nat → Emitter
  | 0 => { bare := fun _ => Emit.crash, action := fun _ => Emit.crash, stmt := fun _ => Emit.crash }
  | levels + 1 =>
    let parts := within levels
    { bare := Emit.expression parts false
      action := Emit.expression parts true
      stmt := Emit.statement parts }

def TypeDecl.levels (d : TypeDecl) : Nat :=
  ((d.members.flatMap Member.trees).map Node.depth).foldl max 0

def World.defaultLevels (w : World) : Nat := w.defaults.foldl (fun n e => n + e.depth) 0

/-- **The emission of any tree of a file.** -/
def Scene.emitter (s : Scene) : Emitter := .within (s.decl.levels + s.world.defaultLevels + 1)

namespace Emit

/-- A tree by itself: an expression is written as it is, and a statement with its line ended. The mode says
whether a conversion is still owed. -/
def node (r : Emitter) : Node → Emit CastMode
  | .expr e => do
    let x ← r.bare e
    write x.text
    pure x.mode
  | .stmt s => do
    r.stmt s
    pure .settled

end Emit

end Polyglot
