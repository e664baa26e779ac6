import Polyglot.Resolve.Overload
import Polyglot.Resolve.Scope

/-!
# Resolving expressions

A draft of an expression becomes a tree: names are bound to symbols, calls to overloads, and every node gets its own type and
the type that its context expects. A name that means nothing stays unbound.

Lambdas that are arguments wait until the overload is chosen, since it is the parameter that gives them their type. Every way
out of a call has to finish its pending arguments.
-/

namespace Polyglot

open Resolve

structure Resolver where
  /-- An expression, where a type is expected. -/
  expr : Draft → Option Ty → Resolve Expr
  stmt : Draft → Resolve Stmt

namespace Resolver

variable (r : Resolver)

def exprOpt (d : Option Draft) (expected : Option Ty) : Resolve (Option Expr) :=
  match d with
  | none => pure none
  | some d => do pure (some (← r.expr d expected))

def block (d : Draft) : Resolve Stmt := do
  if d.kind = "block" then r.stmt d
  else
    let inner ← nested (r.stmt d)
    pure (.node { place := (← world).place d.line d.column } (.block [inner]))

/-! ## Literals and names -/

/-- The type of an integer literal, by its value; one that does not fit 64 bits with a sign is taken for
a small one. -/
def integerType (text : String) : Ty :=
  match Text.signed64? text.toList with
  | some n => if n ≥ Int.pow 2 31 || n < -Int.pow 2 31 then .primitive .int64 else .int
  | none => .int

/-- **The constant that a scalar stands for, and its type.** A hint is the type that the document gives
the literal. -/
def literalOf (n : Yaml.Node) (hint : Option Ty) : Except Problem (Constant × Ty) :=
  match n with
  | .scalar _ tag text =>
    match tag with
    | .null => .ok (⟨.null, "null"⟩, .null)
    | .bool => .ok (⟨.bool, text⟩, .bool)
    | .int =>
      let t :=
        match hint with
        | some t => if t.isNumeric then t else integerType text
        | none => integerType text
      .ok (⟨if t.primitive?.any (·.isFloating) then .float else .int, text⟩, t)
    | .float =>
      .ok (⟨.float, text⟩, if hint.any (·.primitive? == some .float32) then .primitive .float32 else .primitive .float64)
    | .string =>
      if hint.any (·.primitive? == some .char) then
        if text.length = 1 then .ok (⟨.char, text⟩, .char) else .error (.notOneCharacter text)
      else .ok (⟨.string, text⟩, .string)
    | _ => .error (.unsupportedLiteral text)
  | _ => .error (.unsupportedLiteral "")

def literal (d : Draft) : Resolve (Constant × Ty) := do
  let hint ← if d.type = "" then pure none else do pure (some (← readType d.type d.line))
  match d.literal with
  | none => pure (⟨.null, "null"⟩, .null)
  | some n =>
    match literalOf n hint with
    | .ok c => pure c
    | .error p => fail d.line p

/-- The type that reading a member yields on a receiver; a method takes the type its context expects. -/
def memberType (s : Symbol) (receiver expected : Option Ty) : Resolve (Option Ty) :=
  match s.kind with
  | .method => pure expected
  | .type => pure s.type
  | _ => putOpt ((receiver.bind Ty.env?).getD []) s.type

/-- What a simple name means: a local, a member of the type around it, or a type. -/
def identifier (name : String) (expected : Option Ty) : Resolve (Option Symbol × Option Ty) := do
  match ← local? name with
  | some s => pure (some s, s.type)
  | none =>
    let here ← read
    match (if here.self.isSome then here.world.membersNamed here.self name else []) with
    | s :: _ => pure (some s, ← memberType s none expected)
    | [] =>
      match ← typeNamed? name with
      | some t => pure (some (here.world.typeSymbol t), some t)
      | none => pure (none, none)

end Resolver

mutual

/-- The dotted name that a draft spells, if it is an identifier or a chain of members. -/
def Draft.dotted? : Draft → Option String
  | { kind, name, target, .. } =>
    if kind = "identifier" then some name
    else if kind = "member" then (dottedTarget? target).map (· ++ "." ++ name)
    else none

def dottedTarget? : Option Draft → Option String
  | none => none
  | some d => d.dotted?

end

namespace Resolver

variable (r : Resolver)

/-- A draft as the name of a type, where its first part means nothing nearer. -/
def typeTarget? (d : Draft) : Resolve (Option Expr) := do
  match d.dotted? with
  | none => pure none
  | some name =>
    let here ← read
    let w := here.world
    let head := (Text.split '.' name).headD ""
    if (← local? head).isSome || !(w.membersNamed here.self head).isEmpty then pure none
    else
      let found ←
        if Text.has '.' name then
          pure ((w.index.find? name 0).or (w.find? name 0 here.space))
        else typeNamed? name
      match found with
      | none => pure none
      | some t =>
        let mark ← markOf d
        let mark := { mark with symbol := some (w.typeSymbol t), static := some t, converted := some t }
        pure (some (.node mark (if d.kind = "member" then .member none else .identifier)))

/-- The target of a member access; the flag says that it names a type. -/
def receiver (d : Option Draft) : Resolve (Option Expr × Bool) :=
  match d with
  | none => pure (none, false)
  | some d => do
    let isLocal := d.kind = "identifier" && (← local? d.name).isSome
    let asType ←
      if (d.kind = "identifier" || d.kind = "member") && !isLocal then typeTarget? d else pure none
    match asType with
    | some e => pure (some e, true)
    | none => pure (some (← r.expr d none), false)

def lookupMember (name : String) (receiver : Option Ty) (throughType : Bool) (expected : Option Ty) :
    Resolve (Option Symbol × Option Ty) := do
  let found := ((← world).membersNamed receiver name).find? fun s =>
    throughType == s.isStatic || s.kind = .enumValue
  match found with
  | none => pure (none, none)
  | some s => pure (some s, ← memberType s (if throughType then none else receiver) expected)

/-! ## Arguments -/

/-- An argument: resolved, or a lambda that waits for its type. -/
inductive Pending where
  | done (e : Expr)
  | lambda (mark : Mark) (d : Draft)

namespace Pending

/-- The type of an argument; a lambda that waits has none. -/
def type : Pending → Option Ty
  | done e => e.static
  | lambda _ _ => none

/-- The argument as it is; a lambda that still waits is left empty. -/
def bare : Pending → Expr
  | done e => e
  | lambda mark _ => .node mark (.lambda [] none)

end Pending

def arguments : List (Option Draft) → Resolve (List (Argument Pending))
  | [] => pure []
  | none :: _ => crash
  | some d :: rest => do
    match Passing.ofText? d.passing with
    | none => fail d.line (.unknownPassing "argument" d.passing)
    | some passing =>
      let value ← if d.kind = "lambda" then do pure (.lambda (← markOf d) d) else do pure (.done (← r.expr d none))
      let rest ← arguments rest
      pure ({ value, name := d.argName, passing } :: rest)

/-- The parameters of a lambda, declared in the current frame. A parameter without a type takes that of
the signature. -/
def lambdaParameters (line : Int) (env : TypeEnv) :
    List (Option (ParameterDraft Draft)) → List Parameter → Resolve (List LambdaParameter)
  | [], _ => pure []
  | none :: _, _ => crash
  | some p :: rest, signature => do
    let type ←
      if p.type ≠ "" then do pure (some (← readType p.type line))
      else putOpt env (signature.head?.map (·.type))
    declare { kind := .parameter, name := p.name, type }
    let rest ← lambdaParameters line env rest signature.tail
    pure ({ name := p.name, type } :: rest)

/-- **A lambda** where a type is expected: its parameters and its body, in a frame of its own. -/
def lambda (d : Draft) (expected : Option Ty) : Resolve ExprForm := do
  let invoke := (← world).invoke? expected
  let env := (expected.bind Ty.env?).getD []
  nested do
    let parameters ← lambdaParameters d.line env d.parameters ((invoke.map (·.parameters)).getD [])
    let outer := (← get).returns
    let returns ←
      match invoke with
      | some s => putOpt env s.type
      | none => pure none
    modify ({ · with returns })
    let body ←
      match d.body with
      | none => pure none
      | some b =>
        if b.kind = "block" then do pure (some (.block (← r.block b)))
        else do pure (some (.value (← r.expr b returns)))
    modify ({ · with returns := outer })
    pure (.lambda parameters body)

def finishPending (args : List (Argument Pending)) : Resolve (List (Argument Expr)) :=
  args.mapM fun a => do
    match a.value with
    | .done e => pure { a with value := e }
    | .lambda mark d => pure { a with value := .node mark (← r.lambda d none) }

def bareArguments (args : List (Argument Pending)) : List (Argument Expr) :=
  args.map fun a => { a with value := a.value.bare }

/-- What binding a call yields: its arguments, the receiver and the type arguments in force. -/
structure BoundCall where
  args : List (Argument Pending)
  receiver : Option Expr
  env : TypeEnv

/-- What an argument becomes where its parameter has a type: a lambda is resolved, anything else with a
type is converted. -/
def meet (p : Pending) (target : Ty) : Resolve Pending :=
  match p with
  | .lambda mark d => do
    let form ← r.lambda d (some target)
    pure (.done (.node (mark.typed (some target) (some target)) form))
  | .done e =>
    pure (.done (if e.static.isSome && !target.isParam then e.withConverted (some target) else e))

def meetAll (target : Ty) : List Slot → BoundCall → Resolve BoundCall
  | [], c => pure c
  | .receiver :: rest, c => do
    let receiver ←
      match c.receiver with
      | some e => do pure (some (← r.meet (.done e) target).bare)
      | none => pure none
    meetAll target rest { c with receiver }
  | .arg i :: rest, c => do
    match c.args[i]? with
    | none => meetAll target rest c
    | some a =>
      let value ← r.meet a.value target
      meetAll target rest { c with args := c.args.set i { a with value } }

def meetBounds (env : TypeEnv) : List (Bound Slot) → BoundCall → Resolve BoundCall
  | [], c => pure c
  | b :: bounds, c => do
    if b.source.isActual then
      let target ← put env b.type
      let target :=
        match target with
        | .array e => if b.parameter.isVariadic && b.packs then e else target
        | t => t
      let c ← r.meetAll target b.args c
      meetBounds env bounds c
    else meetBounds env bounds c

def shapeOf (place : Position) (receiver : Option Expr) (args : List (Argument Pending)) : CallShape where
  receiver := receiver.map (·.static)
  args := args.map fun a => { value := a.value.type, name := a.name, passing := a.passing }
  place

/-- Binds a call to a method: every argument is converted to its parameter's type, and pending lambdas
are resolved against theirs. -/
def bindArguments (method : Symbol) (place : Position) (typeArgs : List Ty) (env : TypeEnv)
    (receiver : Option Expr) (args : List (Argument Pending)) : Resolve BoundCall := do
  let shape := shapeOf place receiver args
  let bounds ← shape.bindTo (← world) method
  let env := (inferTypeArgs method typeArgs shape.typeOf bounds).over env
  r.meetBounds env bounds { args, receiver, env }

def overload (candidates : List Symbol) (shape : CallShape) : Resolve (Option Symbol) := do
  overload? (← world) shape candidates none

/-! ## Calls -/

def envOf (t : Option Ty) : TypeEnv := (t.bind Ty.env?).getD []

def delegateCall (mark : Mark) (typeArgs : List Ty) (target : Expr) (args : List (Argument Pending)) :
    Resolve (Mark × ExprForm × Option Ty) := do
  match (← world).invoke? target.static with
  | none => pure (mark, .call target typeArgs (← r.finishPending args), none)
  | some invoke =>
    let mark := { mark with symbol := target.symbol.or mark.symbol }
    let env := envOf target.static
    let call ← r.bindArguments invoke mark.place typeArgs env none args
    pure (mark, .call target typeArgs (bareArguments call.args), ← putOpt env invoke.type)

structure Callee where
  candidates : List Symbol := []
  /-- The target, given the receiver as it is after binding. -/
  target : Option Expr → Expr
  receiver : Option Expr := none
  receiverType : Option Ty := none

def callee (target : Draft) : Resolve Callee := do
  let here ← read
  let w := here.world
  let own ←
    if target.kind = "identifier" && (← local? target.name).isNone then
      pure (w.candidates here.self target.name .method)
    else pure []
  if !own.isEmpty then
    let mark ← markOf target
    pure { candidates := own, target := fun _ => .node mark .identifier }
  else if target.kind = "member" then
    let (recv, throughType) ← r.receiver target.target
    let type := recv.bind (·.static)
    let own := (w.candidates type target.name .method).filter (·.isStatic == throughType)
    let candidates := if throughType then own else own ++ w.extensions type target.name
    let mark ← markOf target
    if candidates.isEmpty then
      let (symbol, static) ← lookupMember target.name type throughType none
      let mark := { mark with symbol }.typed static none
      pure { target := fun _ => .node mark (.member recv), receiverType := type }
    else if throughType then
      pure { candidates, target := fun _ => .node mark (.member recv), receiverType := type }
    else
      pure {
        candidates
        target := fun receiver => .node mark (.member receiver)
        receiver := recv
        receiverType := type }
  else
    let e ← r.expr target none
    pure { target := fun _ => e }

/-- **A call.** Its type is the return type of what it is bound to, with the type arguments put in that
the receiver brings and that the arguments show. -/
def invocation (mark : Mark) (d : Draft) : Resolve (Mark × ExprForm × Option Ty) := do
  let typeArgs ← d.typeArgs.mapM (readType · d.line)
  let args ← r.arguments d.args
  match d.target with
  | none => fail d.line .callWithoutTarget
  | some target =>
    let callee ← r.callee target
    if callee.candidates.isEmpty then r.delegateCall mark typeArgs (callee.target callee.receiver) args
    else
      let shape := shapeOf mark.place callee.receiver args
      match ← overload callee.candidates shape with
      | none =>
        pure (mark, .call (callee.target callee.receiver) typeArgs (← r.finishPending args), none)
      | some method =>
        let brought := if method.isExtension then none else callee.receiverType.bind Ty.env?
        let call ← r.bindArguments method mark.place typeArgs (brought.getD []) callee.receiver args
        let after := shapeOf mark.place call.receiver call.args
        let bounds ← after.bindTo (← world) method
        let inferred := inferTypeArgs method typeArgs after.typeOf bounds
        let full := if brought.isSome then call.env.over inferred else inferred
        let target := (callee.target call.receiver).withSymbol method
        pure ({ mark with symbol := some method }, .call target typeArgs (bareArguments call.args),
          ← putOpt full method.type)

/-! ## Creations -/

def memberElement (t : Ty) (d left : Draft) : Resolve Expr := do
  let found := ((← world).membersNamed (some t) left.name).head?
  let lt ← putOpt (envOf (some t)) (found.bind (·.type))
  let leftMark := { (← markOf left) with symbol := found }.typed lt none
  let right ← r.exprOpt d.right lt
  pure (.node ((← markOf d).typed lt none) (.assign (some (.node leftMark .identifier)) right))

/-- The values of an element of a collection, as arguments of its `Add` method. -/
def addElement (t : Ty) (d : Draft) : Resolve Expr := do
  let drafts := if d.kind = "initializer" then d.elements else [some d]
  let values ← drafts.mapM (r.exprOpt · none)
  let mark ← markOf d
  let shape : CallShape := {
    receiver := some (some t)
    args := values.map fun v => { value := v.bind (·.static) }
    place := mark.place }
  match ← overload ((← world).candidates (some t) "Add" .method) shape with
  | none => pure (.node mark (.element values))
  | some add =>
    let bounds ← shape.bindTo (← world) add
    let env := (inferTypeArgs add [] shape.typeOf bounds).over (envOf (some t))
    let values ← convertValues env bounds values
    pure (.node { mark with symbol := some add } (.element values))
where
  convertValues (env : TypeEnv) : List (Bound Slot) → List (Option Expr) → Resolve (List (Option Expr))
    | [], values => pure values
    | b :: bounds, values => do
      if b.source.isActual then
        let target ← put env b.type
        let target :=
          match target with
          | .array e => if b.parameter.isVariadic && b.packs then e else target
          | t => t
        let values := b.args.foldl (fun values slot =>
          match slot with
          | .receiver => values
          | .arg i => values.modify i (·.map fun e =>
            if e.static.isSome && !target.isParam then e.withConverted (some target) else e)) values
        convertValues env bounds values
      else convertValues env bounds values

def initializerElement (t : Ty) (d : Draft) : Resolve Expr :=
  match d.left with
  | some left =>
    if d.kind = "assign" && left.kind = "identifier" then r.memberElement t d left else r.addElement t d
  | none => r.addElement t d

def initializerElements (t : Ty) : List (Option Draft) → Resolve (List Expr)
  | [] => pure []
  | none :: _ => crash
  | some d :: rest => do
    let e ← r.initializerElement t d
    let es ← initializerElements t rest
    pure (e :: es)

/-- **The creation of an object.** Only a constructor of the type itself counts. -/
def creation (mark : Mark) (d : Draft) : Resolve (Mark × ExprForm × Option Ty) := do
  let t ← readType d.type d.line
  let args ← r.arguments d.args
  let shape := shapeOf mark.place none args
  let found ← overload ((← world).candidates (some t) ".ctor" .constructor) shape
  let own := found.filter fun s => (s.container.map (·.definitionKey)) == some t.definitionKey
  match own with
  | some ctor =>
    let call ← r.bindArguments ctor mark.place [] (envOf (some t)) none args
    let elements ← r.initializerElements t d.elements
    pure ({ mark with symbol := some ctor }, .creation t (bareArguments call.args) elements, some t)
  | none =>
    let args ← r.finishPending args
    let elements ← r.initializerElements t d.elements
    pure (mark, .creation t args elements, some t)

def arrayCreation (d : Draft) : Resolve (ExprForm × Option Ty) := do
  let elem ← readType d.type d.line
  let sizes ← d.args.mapM (r.exprOpt · (some .int))
  let elements ← d.elements.mapM (r.exprOpt · (some elem))
  pure (.arrayCreation (.array elem) sizes elements, some (.array elem))

/-! ## Operators -/

/-- The operator methods that the types of some operands declare; each type is asked once. -/
def operatorCandidates (w : World) (method : String) : List (Option Ty) → List String → List Symbol
  | [], _ => []
  | none :: rest, seen => operatorCandidates w method rest seen
  | some t :: rest, seen =>
    if (t.isDecl .classDecl || t.isDecl .structDecl) && !seen.contains t.key then
      w.candidates (some t) method .operator ++ operatorCandidates w method rest (t.key :: seen)
    else operatorCandidates w method rest seen

def userOperator (op : String) (place : Position) (operands : List (Option Expr)) :
    Resolve (Option Symbol) := do
  let method := operatorMethod op operands.length
  if method = op then pure none
  else
    let types := operands.map (·.bind (·.static))
    match operatorCandidates (← world) method types [] with
    | [] => pure none
    | candidates => overload candidates { args := types.map fun t => { value := t }, place }

def convertOperands : List (Option Expr) → List Parameter → List (Option Expr)
  | e :: es, p :: ps =>
    e.map (fun e => if e.static.isSome then e.withConverted (some p.type) else e) :: convertOperands es ps
  | es, _ => es

def binaryType (op : String) (lt rt : Option Ty) : Option Ty :=
  if op ∈ ["==", "!=", "<", ">", "<=", ">=", "&&", "||"] then some .bool
  else if op = "??" then lt
  else if op = "+" && (lt.any (·.isString) || rt.any (·.isString)) then some .string
  else if op = "<<" || op = ">>" then promote lt (some .int)
  else if (op = "&" || op = "|" || op = "^") &&
      lt.any (fun t => t.isDecl .enumDecl || t.primitive? == some .bool) then lt
  else promote lt rt

def binary (mark : Mark) (d : Draft) : Resolve (Mark × ExprForm × Option Ty) := do
  let left ← r.exprOpt d.left none
  let right ← r.exprOpt d.right none
  match ← userOperator d.op mark.place [left, right] with
  | some s =>
    let operands := convertOperands [left, right] s.parameters
    pure ({ mark with symbol := some s }, .binary (operands[0]?.getD left) (operands[1]?.getD right), s.type)
  | none =>
    pure (mark, .binary left right, binaryType d.op (left.bind (·.static)) (right.bind (·.static)))

def unaryType (op : String) (t : Option Ty) : Option Ty :=
  if op = "!" then some .bool else if op = "++" || op = "--" then t else promote t (some .int)

def unary (mark : Mark) (d : Draft) : Resolve (Mark × ExprForm × Option Ty) := do
  let operand ← r.exprOpt d.target none
  match ← userOperator d.op mark.place [operand] with
  | some s =>
    let operands := convertOperands [operand] s.parameters
    pure ({ mark with symbol := some s }, .unary (operands[0]?.getD operand), s.type)
  | none => pure (mark, .unary operand, unaryType d.op (operand.bind (·.static)))

def assignment (d : Draft) : Resolve (ExprForm × Option Ty) := do
  let left ← r.exprOpt d.left none
  let lt := left.bind (·.static)
  let appends := d.op ≠ "" && d.op ≠ "=" && lt.any (·.isString)
  let right ← r.exprOpt d.right (if appends then none else lt)
  pure (.assign left right, lt)

/-! ## The rest -/

def typed (kind : TypedKind) (mark : Mark) (d : Draft) (expected : Option Ty) :
    Resolve (Mark × ExprForm × Option Ty) := do
  let type ← if d.type = "" then pure none else do pure (some (← readType d.type d.line))
  let operand ← r.exprOpt d.target none
  let form := ExprForm.typed kind type operand
  match kind with
  | .is =>
    match type with
    | some t =>
      if d.name = "" then pure (mark, form, some .bool)
      else
        let s : Symbol := { kind := .local, name := d.name, type := some t }
        declare s
        pure ({ mark with declares := some s }, form, some .bool)
    | none => pure (mark, form, some .bool)
  | .typeOf => pure (mark, form, (← world).find? "System.Type" 0 "")
  | .default => pure (mark, form, type.or expected)
  | _ => pure (mark, form, type)

def choiceType (yes no : Option Ty) : Option Ty :=
  match yes with
  | none | some .null => no
  | some t =>
    match no with
    | some u => if t.isNumeric && u.isNumeric then promote (some t) (some u) else some t
    | none => some t

def conditional (d : Draft) : Resolve (ExprForm × Option Ty) := do
  let cond ← r.exprOpt d.cond (some .bool)
  let yes ← r.exprOpt d.yes none
  let no ← r.exprOpt d.no none
  let t := choiceType (yes.bind (·.static)) (no.bind (·.static))
  let convert := Option.map fun (e : Expr) => if e.static.isSome then e.withConverted t else e
  pure (.conditional cond (convert yes) (convert no), t)

def elementAccess (mark : Mark) (d : Draft) : Resolve (Mark × ExprForm × Option Ty) := do
  let target ← r.exprOpt d.target none
  let args ← r.arguments d.args
  let args ← r.finishPending args
  match target.bind (·.static) with
  | none => pure (mark, .index target args, none)
  | some (.array e) => pure (mark, .index target args, some e)
  | some .string => pure (mark, .index target args, some .char)
  | some t =>
    let indexers := ((← world).candidates (some t) "Item" .property).filter (!·.parameters.isEmpty)
    let pending := args.map fun a => { a with value := Pending.done a.value }
    match ← overload indexers (shapeOf mark.place target pending) with
    | none => pure (mark, .index target args, none)
    | some item =>
      let env := envOf (some t)
      let call ← r.bindArguments item mark.place [] env target pending
      pure ({ mark with symbol := some item }, .index call.receiver (bareArguments call.args),
        ← putOpt env item.type)

def anonymousElements : List (Option Draft) → Resolve (List Expr)
  | [] => pure []
  | none :: _ => crash
  | some d :: rest => do
    match d.kind == "assign", d.left with
    | true, some left =>
      let leftMark ← markOf left
      let right ← r.exprOpt d.right none
      let e := Expr.node (← markOf d) (.assign (some (.node leftMark .identifier)) right)
      let es ← anonymousElements rest
      pure (e :: es)
    | _, _ => fail d.line .anonymousMember

def exprOfKind (kind : NodeKind) (d : Draft) (expected : Option Ty) :
    Resolve (Mark × ExprForm × Option Ty) := do
  let mark ← markOf d
  let plain := fun (x : ExprForm × Option Ty) => (mark, x.1, x.2)
  match kind with
  | .literal =>
    let (c, t) ← literal d
    pure (mark, .literal c, some t)
  | .identifier =>
    let (symbol, t) ← identifier d.name expected
    pure ({ mark with symbol }, .identifier, t)
  | .member =>
    let (target, throughType) ← r.receiver d.target
    let (symbol, t) ← lookupMember d.name (target.bind (·.static)) throughType expected
    pure ({ mark with symbol }, .member target, t)
  | .invocation => r.invocation mark d
  | .creation => r.creation mark d
  | .arrayCreation => do pure (plain (← r.arrayCreation d))
  | .binary => r.binary mark d
  | .unary => r.unary mark d
  | .assign => do pure (plain (← r.assignment d))
  | .cast => r.typed .cast mark d expected
  | .is => r.typed .is mark d expected
  | .as => r.typed .as mark d expected
  | .default => r.typed .default mark d expected
  | .typeOf => r.typed .typeOf mark d expected
  | .conditional => do pure (plain (← r.conditional d))
  | .paren =>
    let inner ← r.exprOpt d.target none
    pure (mark, .paren inner, inner.bind (·.static))
  | .this => pure (mark, .this, (← read).self)
  | .base =>
    match (← read).self with
    | none => crash
    | some self => pure (mark, .base, (← world).baseOf self)
  | .index => r.elementAccess mark d
  | .lambda => do pure (mark, ← r.lambda d expected, expected)
  | .anonymous => do pure (mark, .anonymous (← r.anonymousElements d.elements), some .dynamic)
  | .initializer => fail d.line .strayInitializer
  | _ => fail d.line (.notExpression d.kind)

/-- **One expression**, given how its parts are resolved. A draft of kind `null` is the null literal. -/
def exprStep (d : Draft) (expected : Option Ty) : Resolve Expr := do
  let d := if d.kind = "null" then { kind := "literal", line := d.line, column := d.column } else d
  match NodeKind.ofText? d.kind with
  | none => fail d.line (.notExpression d.kind)
  | some kind =>
    let (mark, form, static) ← r.exprOfKind kind d expected
    pure (.node (mark.typed static expected) form)

end Resolver

end Polyglot
