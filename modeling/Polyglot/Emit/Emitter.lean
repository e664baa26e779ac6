import Polyglot.Emit.Name

/-!
# How the parts of a tree are emitted

The modules that emit one construct each are given the means to emit its parts: an `Emitter`. What they do
with them never depends on how deep the parts are, so the knot is tied once, in `Polyglot.Emit.Knot`.
-/

namespace Polyglot

/-- What the parts of a tree are emitted with. -/
structure Emitter where
  /-- An expression, before it is converted to the type that its place expects. -/
  bare : Expr → Emit Rendered
  /-- An expression that is a whole statement, before it is converted. -/
  action : Expr → Emit Rendered
  /-- A statement, with its line ended. -/
  stmt : Stmt → Emit Unit

namespace Emitter

open Emit

def convert (e : Expr) (r : Rendered) : Emit Rendered := do
  let t ← target
  match t.refusedCast? r.mode e.static e.converted with
  | some what => unsupported e.place what
  | none => pure (t.convert (← index) e.static e.converted r)

def present (render : Expr → Emit Rendered) (e : Option Expr) : Emit Rendered :=
  match e with
  | none => throw (.assertion "missing expression")
  | some e => do convert e (← render e)

variable (r : Emitter)

/-- **An expression where a value is wanted**: rendered, and converted to the type that its place
expects. -/
def value (e : Option Expr) : Emit Rendered := present r.bare e

/-- The text of an expression, in parentheses when it binds looser than its place allows. -/
def operand (e : Option Expr) (least : Prec) : Emit String := do
  pure ((← r.value e).operand least)

def texts (es : List (Option Expr)) : Emit (List String) :=
  es.mapM fun e => do pure (← r.value e).text

def stmts (ss : List Stmt) : Emit Unit := ss.forM r.stmt

/-- What stands between the braces of a clause: the statements of a block, or a single statement. -/
def body (s : Option Stmt) : Emit Unit :=
  match s with
  | none => pure ()
  | some s =>
    match s.form with
    | .block ss => r.stmts ss
    | _ => r.stmt s

/-- A block. Its line is not ended. -/
def block (ss : List Stmt) : Emit Unit := do
  openBlock ""
  r.stmts ss
  closeBlock

end Emitter

def staticOf (e : Option Expr) : Option Ty := e.bind (·.static)

def symbolOf (e : Option Expr) : Option Symbol := e.bind (·.symbol)

def placeOf (e : Option Expr) : Position := (e.map (·.place)).getD {}

def Expr.userOperator? (e : Expr) : Option Symbol := e.symbol.filter (·.kind = .operator)

def isText (t : Option Ty) : Bool := t.any (·.isString)

end Polyglot
