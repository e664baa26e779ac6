import Polyglot.Position
import Polyglot.Symbol

/-!
# Trees

The bodies of a program as trees of expressions and statements. Every node carries a mark: its place, the words that the document
gives it, and what resolution found out about it. A part that a document leaves out is `none`; it is the emitting side that says
what a missing part means.
-/

namespace Polyglot

/-- What is known about a node besides its parts. -/
structure Mark where
  place : Position
  name : String := ""
  op : String := ""
  isPostfix : Bool := false
  symbol : Option Symbol := none
  static : Option Ty := none
  converted : Option Ty := none
  declares : Option Symbol := none
deriving Repr, Inhabited

/-- An argument of a call. -/
structure Argument (α : Type) where
  value : α
  /-- The parameter that it is for; empty: the next one. -/
  name : String := ""
  passing : Passing := .byValue
deriving Repr

structure Handler (α : Type) where
  type : Option Ty
  /-- The variable that holds the exception; empty: none. -/
  name : String
  body : Option α
deriving Repr

structure LambdaParameter where
  name : String
  type : Option Ty
deriving Repr

/-- The expressions that are about a type. -/
inductive TypedKind where
  | cast
  | is
  | as
  | default
  | typeOf
deriving Repr, DecidableEq

mutual

inductive Expr where
  | node (mark : Mark) (form : ExprForm)

inductive ExprForm where
  | literal (c : Constant)
  | identifier
  /-- A member of the target; a type that is named by a path has none. -/
  | member (target : Option Expr)
  | call (target : Expr) (typeArgs : List Ty) (args : List (Argument Expr))
  | creation (type : Ty) (args : List (Argument Expr)) (elements : List Expr)
  | arrayCreation (type : Ty) (sizes elements : List (Option Expr))
  | binary (left right : Option Expr)
  | unary (operand : Option Expr)
  | assign (left right : Option Expr)
  | typed (kind : TypedKind) (type : Option Ty) (operand : Option Expr)
  | conditional (cond yes no : Option Expr)
  | paren (inner : Option Expr)
  | this
  | base
  | index (target : Option Expr) (args : List (Argument Expr))
  | lambda (parameters : List LambdaParameter) (body : Option LambdaBody)
  | anonymous (elements : List Expr)
  | element (values : List (Option Expr))

inductive LambdaBody where
  | value (e : Expr)
  | block (s : Stmt)

inductive Stmt where
  | node (mark : Mark) (form : StmtForm)

inductive StmtForm where
  | block (statements : List Stmt)
  | expr (value : Option Expr)
  | declaration (type : Option Ty) (value : Option Expr)
  | returns (value : Option Expr)
  | ifElse (cond : Option Expr) (yes no : Option Stmt)
  | whileLoop (cond : Option Expr) (body : Option Stmt)
  | forLoop (init : List Stmt) (cond : Option Expr) (post : List (Option Expr)) (body : Option Stmt)
  | foreach (type : Option Ty) (collection : Option Expr) (body : Option Stmt)
  | breakLoop
  | continueLoop
  | throws (value : Option Expr)
  | tryCatch (body : Option Stmt) (handlers : List (Handler Stmt)) (finalizer : Option Stmt)
  | yields (value : Option Expr)

end

/-! ## Kinds -/

inductive NodeKind where
  | literal
  | identifier
  | member
  | invocation
  | creation
  | arrayCreation
  | binary
  | unary
  | assign
  | cast
  | conditional
  | paren
  | this
  | base
  | index
  | lambda
  | is
  | as
  | default
  | anonymous
  | typeOf
  | initializer
  | block
  | expr
  | local
  | returns
  | ifElse
  | whileLoop
  | forLoop
  | foreach
  | breakLoop
  | continueLoop
  | throws
  | tryCatch
  | yields
deriving Repr, DecidableEq

namespace NodeKind

/-- Every kind with its word, in the order of declaration. -/
def words : List (NodeKind × String) :=
  [(literal, "literal"), (identifier, "identifier"), (member, "member"), (invocation, "invocation"),
    (creation, "new"), (arrayCreation, "newarray"), (binary, "binary"), (unary, "unary"),
    (assign, "assign"), (cast, "cast"), (conditional, "conditional"), (paren, "paren"), (this, "this"),
    (base, "base"), (index, "index"), (lambda, "lambda"), (is, "is"), (as, "as"), (default, "default"),
    (anonymous, "anonymous"), (typeOf, "typeof"), (initializer, "initializer"), (block, "block"),
    (expr, "expr"), (.local, "local"), (returns, "return"), (ifElse, "if"), (whileLoop, "while"),
    (forLoop, "for"), (foreach, "foreach"), (breakLoop, "break"), (continueLoop, "continue"),
    (throws, "throw"), (tryCatch, "try"), (yields, "yield")]

def text (k : NodeKind) : String := (words.lookup k).getD ""

def ofText? (s : String) : Option NodeKind := (words.find? (·.2 = s)).map (·.1)

def isStatement : NodeKind → Bool
  | block | expr | «local» | returns | ifElse | whileLoop | forLoop | foreach | breakLoop
  | continueLoop | throws | tryCatch | yields => true
  | _ => false

end NodeKind

def TypedKind.nodeKind : TypedKind → NodeKind
  | cast => .cast
  | is => .is
  | as => .as
  | default => .default
  | typeOf => .typeOf

def ExprForm.kind : ExprForm → NodeKind
  | literal _ => .literal
  | identifier => .identifier
  | member _ => .member
  | call _ _ _ => .invocation
  | creation _ _ _ => .creation
  | arrayCreation _ _ _ => .arrayCreation
  | binary _ _ => .binary
  | unary _ => .unary
  | assign _ _ => .assign
  | typed k _ _ => k.nodeKind
  | conditional _ _ _ => .conditional
  | paren _ => .paren
  | this => .this
  | base => .base
  | index _ _ => .index
  | lambda _ _ => .lambda
  | anonymous _ => .anonymous
  | element _ => .initializer

def StmtForm.kind : StmtForm → NodeKind
  | block _ => .block
  | expr _ => .expr
  | declaration _ _ => .local
  | returns _ => .returns
  | ifElse _ _ _ => .ifElse
  | whileLoop _ _ => .whileLoop
  | forLoop _ _ _ _ => .forLoop
  | foreach _ _ _ => .foreach
  | breakLoop => .breakLoop
  | continueLoop => .continueLoop
  | throws _ => .throws
  | tryCatch _ _ _ => .tryCatch
  | yields _ => .yields

namespace Expr

def mark : Expr → Mark
  | node m _ => m

def form : Expr → ExprForm
  | node _ f => f

def kind (e : Expr) : NodeKind := e.form.kind

def place (e : Expr) : Position := e.mark.place

def symbol (e : Expr) : Option Symbol := e.mark.symbol

def static (e : Expr) : Option Ty := e.mark.static

def converted (e : Expr) : Option Ty := e.mark.converted

def mapMark (f : Mark → Mark) : Expr → Expr
  | node m form => node (f m) form

def withSymbol (e : Expr) (s : Symbol) : Expr := e.mapMark ({ · with symbol := some s })

def withConverted (e : Expr) (t : Option Ty) : Expr := e.mapMark ({ · with converted := t })

end Expr

namespace Stmt

def mark : Stmt → Mark
  | node m _ => m

def form : Stmt → StmtForm
  | node _ f => f

def kind (s : Stmt) : NodeKind := s.form.kind

def place (s : Stmt) : Position := s.mark.place

end Stmt

/-! ## Walking a tree -/

inductive Node where
  | expr (e : Expr)
  | stmt (s : Stmt)

namespace Node

def mark : Node → Mark
  | expr e => e.mark
  | stmt s => s.mark

def kind : Node → NodeKind
  | expr e => e.kind
  | stmt s => s.kind

def ofExprs (es : List (Option Expr)) : List Node := es.filterMap (·.map expr)

def ofArgs (args : List (Argument Expr)) : List Node := args.map (expr ·.value)

/-- The parts of an expression, in the order of the text. -/
def exprChildren : ExprForm → List Node
  | .literal _ | .identifier | .this | .base => []
  | .member target => ofExprs [target]
  | .call target _ args => expr target :: ofArgs args
  | .creation _ args elements => ofArgs args ++ elements.map expr
  | .arrayCreation _ sizes elements => ofExprs sizes ++ ofExprs elements
  | .binary l r | .assign l r => ofExprs [l, r]
  | .unary e | .paren e => ofExprs [e]
  | .typed _ _ e => ofExprs [e]
  | .conditional c a b => ofExprs [c, a, b]
  | .index target args => ofExprs [target] ++ ofArgs args
  | .lambda _ none => []
  | .lambda _ (some (.value e)) => [expr e]
  | .lambda _ (some (.block s)) => [stmt s]
  | .anonymous elements => elements.map expr
  | .element values => ofExprs values

/-- The parts of a statement, in the order of the text. -/
def stmtChildren : StmtForm → List Node
  | .block ss => ss.map stmt
  | .expr e | .declaration _ e | .returns e | .throws e | .yields e => ofExprs [e]
  | .ifElse c a b => ofExprs [c] ++ a.toList.map stmt ++ b.toList.map stmt
  | .whileLoop c b => ofExprs [c] ++ b.toList.map stmt
  | .forLoop init c post b => init.map stmt ++ ofExprs [c] ++ ofExprs post ++ b.toList.map stmt
  | .foreach _ e b => ofExprs [e] ++ b.toList.map stmt
  | .breakLoop | .continueLoop => []
  | .tryCatch b handlers f =>
    b.toList.map stmt ++ handlers.flatMap (fun h => h.body.toList.map stmt) ++ f.toList.map stmt

def children : Node → List Node
  | expr e => exprChildren e.form
  | stmt s => stmtChildren s.form

/-- A node and its descendants, each before its parts, as far as a number of levels. -/
def preorderWithin : Nat → Node → List Node
  | 0, _ => []
  | fuel + 1, n => n :: n.children.flatMap (preorderWithin fuel)

end Node

mutual

def Expr.depth : Expr → Nat
  | .node _ form => form.depth + 1

def ExprForm.depth : ExprForm → Nat
  | .literal _ | .identifier | .this | .base => 0
  | .member target => optDepth target
  | .call target _ args => max target.depth (argsDepth args)
  | .creation _ args elements => max (argsDepth args) (exprsDepth elements)
  | .arrayCreation _ sizes elements => max (optsDepth sizes) (optsDepth elements)
  | .binary l r | .assign l r => max (optDepth l) (optDepth r)
  | .unary e | .paren e => optDepth e
  | .typed _ _ e => optDepth e
  | .conditional c a b => max (optDepth c) (max (optDepth a) (optDepth b))
  | .index target args => max (optDepth target) (argsDepth args)
  | .lambda _ none => 0
  | .lambda _ (some body) => body.depth
  | .anonymous elements => exprsDepth elements
  | .element values => optsDepth values

def LambdaBody.depth : LambdaBody → Nat
  | .value e => e.depth
  | .block s => s.depth

def optDepth : Option Expr → Nat
  | none => 0
  | some e => e.depth

def exprsDepth : List Expr → Nat
  | [] => 0
  | e :: es => max e.depth (exprsDepth es)

def optsDepth : List (Option Expr) → Nat
  | [] => 0
  | e :: es => max (optDepth e) (optsDepth es)

def argsDepth : List (Argument Expr) → Nat
  | [] => 0
  | ⟨e, _, _⟩ :: es => max e.depth (argsDepth es)

def Stmt.depth : Stmt → Nat
  | .node _ form => form.depth + 1

def StmtForm.depth : StmtForm → Nat
  | .block ss => stmtsDepth ss
  | .expr e | .declaration _ e | .returns e | .throws e | .yields e => optDepth e
  | .ifElse c a b => max (optDepth c) (max (optStmtDepth a) (optStmtDepth b))
  | .whileLoop c b => max (optDepth c) (optStmtDepth b)
  | .forLoop init c post b =>
    max (stmtsDepth init) (max (optDepth c) (max (optsDepth post) (optStmtDepth b)))
  | .foreach _ e b => max (optDepth e) (optStmtDepth b)
  | .breakLoop | .continueLoop => 0
  | .tryCatch b handlers f => max (optStmtDepth b) (max (handlersDepth handlers) (optStmtDepth f))

def optStmtDepth : Option Stmt → Nat
  | none => 0
  | some s => s.depth

def stmtsDepth : List Stmt → Nat
  | [] => 0
  | s :: ss => max s.depth (stmtsDepth ss)

def handlersDepth : List (Handler Stmt) → Nat
  | [] => 0
  | ⟨_, _, b⟩ :: hs => max (optStmtDepth b) (handlersDepth hs)

end

namespace Node

def depth : Node → Nat
  | expr e => e.depth
  | stmt s => s.depth

/-- **A node and its descendants**, each before its parts. -/
def preorder (n : Node) : List Node := preorderWithin n.depth n

/-- Does a `continue` inside a node continue the loop around the node? Loops have their own, and lambdas are
bodies of their own. Looked for as far as a number of levels. -/
def continuesWithin : Nat → Node → Bool
  | 0, _ => false
  | fuel + 1, n =>
    match n.kind with
    | .continueLoop => true
    | .whileLoop | .forLoop | .foreach | .lambda => false
    | _ => n.children.any (continuesWithin fuel)

/-- **Does the body of a loop continue its loop?** A body that is a loop itself is searched as well. -/
def continues (n : Node) : Bool :=
  n.kind = .continueLoop || n.children.any (continuesWithin n.depth)

end Node

end Polyglot
