import Polyglot.Resolve.Expr

/-!
# Resolving statements

A draft of a statement becomes a tree of statements. Blocks, branches, loop bodies, handlers and lambdas
have frames of their own, so that what they declare ends with them.
-/

namespace Polyglot

open Resolve

namespace Resolver

variable (r : Resolver)

def stmts : List (Option Draft) → Resolve (List Stmt)
  | [] => pure []
  | none :: _ => crash
  | some d :: rest => do
    let s ← r.stmt d
    let ss ← stmts rest
    pure (s :: ss)

def stmtOpt (d : Option Draft) : Resolve (Option Stmt) :=
  match d with
  | none => pure none
  | some d => do pure (some (← nested (r.stmt d)))

/-- The type that a declaration names; `var` names none. -/
def declaredType (d : Draft) : Resolve (Option Ty) :=
  if d.type = "" || d.type = "var" then pure none else do pure (some (← readType d.type d.line))

def localDeclaration (mark : Mark) (d : Draft) : Resolve Stmt := do
  let type ← declaredType d
  let value ← r.exprOpt d.value type
  match type.or (value.bind (·.static)) with
  | none => fail d.line (.untypedLocal d.name)
  | some t =>
    let s : Symbol := { kind := .local, name := d.name, type := some t }
    declare s
    pure (.node { mark with declares := some s } (.declaration type value))

/-- A loop over a collection; its variable lives in a frame around the body. -/
def foreach (mark : Mark) (d : Draft) : Resolve Stmt := do
  let collection ← r.exprOpt d.value none
  let type ← declaredType d
  let elem := (type.or ((← world).elementType (collection.bind (·.static)))).getD .object
  let s : Symbol := { kind := .local, name := d.name, type := some elem }
  let body ← nested do
    declare s
    r.stmtOpt d.body
  pure (.node { mark with declares := some s } (.foreach type collection body))

def handlers (line : Int) : List (Option (HandlerDraft Draft)) → Resolve (List (Handler Stmt))
  | [] => pure []
  | none :: _ => crash
  | some h :: rest => do
    let type ← if h.type = "" then pure none else do pure (some (← readType h.type line))
    let body ← nested do
      if h.name ≠ "" then declare { kind := .local, name := h.name, type := some (type.getD .object) }
      r.stmtOpt h.body
    let rest ← handlers line rest
    pure ({ type, name := h.name, body } :: rest)

def stmtOfKind (kind : NodeKind) (d : Draft) : Resolve Stmt := do
  let mark ← markOf d
  let form := fun f => Stmt.node mark f
  match kind with
  | .block => do pure (form (.block (← nested (r.stmts d.statements))))
  | .expr => do pure (form (.expr (← r.exprOpt d.value none)))
  | .local => r.localDeclaration mark d
  | .returns => do pure (form (.returns (← r.exprOpt d.value (← get).returns)))
  | .ifElse =>
    let cond ← r.exprOpt d.cond (some .bool)
    let yes ← r.stmtOpt d.yes
    let no ← r.stmtOpt d.no
    pure (form (.ifElse cond yes no))
  | .whileLoop =>
    let cond ← r.exprOpt d.cond (some .bool)
    let body ← r.stmtOpt d.body
    pure (form (.whileLoop cond body))
  | .forLoop =>
    nested do
      let init ← r.stmts d.init
      let cond ← r.exprOpt d.cond (some .bool)
      let post ← d.post.mapM (r.exprOpt · none)
      let body ← r.stmtOpt d.body
      pure (form (.forLoop init cond post body))
  | .foreach => r.foreach mark d
  | .breakLoop => pure (form .breakLoop)
  | .continueLoop => pure (form .continueLoop)
  | .throws => do pure (form (.throws (← r.exprOpt d.value none)))
  | .tryCatch =>
    let body ← r.stmtOpt d.body
    let handlers ← r.handlers d.line d.handlers
    let finalizer ← r.stmtOpt d.finalizer
    pure (form (.tryCatch body handlers finalizer))
  | .yields => do pure (form (.yields (← r.exprOpt d.value none)))
  | _ => crash

/-- **One statement**, given how its parts are resolved. A draft of any other kind is an expression in
the place of a statement. -/
def stmtStep (d : Draft) : Resolve Stmt := do
  match (NodeKind.ofText? d.kind).filter (·.isStatement) with
  | some kind => r.stmtOfKind kind d
  | none =>
    let e ← r.expr d none
    pure (.node { place := e.place } (.expr (some e)))

end Resolver

/-! ## Tying the knot -/

def Resolver.within : Nat → Resolver
  | 0 => { expr := fun _ _ => crash, stmt := fun _ => crash }
  | fuel + 1 =>
    let r := Resolver.within fuel
    { expr := r.exprStep, stmt := r.stmtStep }

mutual

def Draft.depth : Draft → Nat
  | { target, left, right, args, elements, cond, yes, no, init, post, body, statements, value, parameters,
      handlers, finalizer, .. } =>
    1 + max (depthOpt target) (max (depthOpt left) (max (depthOpt right) (max (depthAll args)
      (max (depthAll elements) (max (depthOpt cond) (max (depthOpt yes) (max (depthOpt no)
      (max (depthAll init) (max (depthAll post) (max (depthOpt body) (max (depthAll statements)
      (max (depthOpt value) (max (depthParameters parameters) (max (depthHandlers handlers)
      (depthOpt finalizer)))))))))))))))

def depthOpt : Option Draft → Nat
  | none => 0
  | some d => d.depth

def depthAll : List (Option Draft) → Nat
  | [] => 0
  | d :: ds => max (depthOpt d) (depthAll ds)

def depthParameters : List (Option (ParameterDraft Draft)) → Nat
  | [] => 0
  | none :: ps => depthParameters ps
  | some ⟨_, _, _, _, _, _, d, _⟩ :: ps => max (depthOpt d) (depthParameters ps)

def depthHandlers : List (Option (HandlerDraft Draft)) → Nat
  | [] => 0
  | none :: hs => depthHandlers hs
  | some ⟨_, _, d⟩ :: hs => max (depthOpt d) (depthHandlers hs)

end

namespace Resolve

/-- An expression. Every level of a draft takes at most two steps. -/
def expr (d : Draft) (expected : Option Ty) : Resolve Expr := (Resolver.within (2 * d.depth + 1)).expr d expected

def block (d : Draft) : Resolve Stmt := (Resolver.within (2 * d.depth + 1)).block d

def chain (c : ChainDraft) (line : Int) : Resolve Expr := do
  let here ← read
  let w := here.world
  let mark : Mark := { place := w.place line 0 }
  let r := Resolver.within (2 * depthAll c.args + 1)
  let call := fun (owner : Option Ty) (target : ExprForm) => do
    let args ← r.arguments c.args
    let target := Expr.node mark target
    match owner with
    | none => pure (Expr.node mark (.call target [] (Resolver.bareArguments args)))
    | some t =>
      match ← Resolver.overload (w.candidates (some t) ".ctor" .constructor)
          (Resolver.shapeOf mark.place none args) with
      | none => pure (Expr.node mark (.call target [] (Resolver.bareArguments args)))
      | some ctor =>
        let bound ← r.bindArguments ctor mark.place [] (Resolver.envOf (some t)) none args
        pure (Expr.node { mark with symbol := some ctor }
          (.call target [] (Resolver.bareArguments bound.args)))
  match c.kind with
  | "this" => call here.self .this
  | "" | "base" => call (here.self.bind w.baseOf) .base
  | kind => fail line (.unknownChain kind)

end Resolve

end Polyglot
