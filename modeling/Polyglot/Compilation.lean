import Polyglot.Resolve.Stmt

/-!
# Compilations

A compilation is a document with every name resolved. It is built in four passes over the declarations:
the types are entered, then their supertypes, then their members, and then the bodies of the members
are resolved. The first fault in this order stops it.

An external declaration of a type that is known already adds members to it; a built-in type keeps its
supertypes.
-/

namespace Polyglot

inductive MemberKind where
  | field
  | property
  | method
  | constructor
  | event
  | operator
deriving Repr, DecidableEq

namespace MemberKind

def text : MemberKind → String
  | field => "field"
  | property => "property"
  | method => "method"
  | constructor => "constructor"
  | event => "event"
  | operator => "operator"

def ofText? : String → Option MemberKind
  | "field" => some field
  | "property" => some property
  | "method" => some method
  | "constructor" => some constructor
  | "event" => some event
  | "operator" => some operator
  | _ => none

def symbolKind : MemberKind → SymbolKind
  | field => .field
  | property => .property
  | method => .method
  | constructor => .constructor
  | event => .event
  | operator => .operator

end MemberKind

/-- A member with its resolved bodies. -/
structure Member where
  kind : MemberKind
  symbol : Symbol
  place : Position
  /-- The body of a method, a constructor or an operator. -/
  body : Option Stmt := none
  getter : Option Stmt := none
  setter : Option Stmt := none
  initializer : Option Expr := none
  /-- The call of another constructor before the body. -/
  chain : Option Expr := none

def Member.isAuto (m : Member) : Bool := m.kind = .property && m.getter.isNone && m.setter.isNone

def Member.trees (m : Member) : List Node :=
  m.initializer.toList.map .expr ++ m.chain.toList.map .expr ++ m.getter.toList.map .stmt ++
    m.setter.toList.map .stmt ++ m.body.toList.map .stmt

/-- A named value of an enumeration, with the number that the document gives it. -/
structure EnumMember where
  name : String
  value : Option String := none
deriving Repr, DecidableEq

/-- A declared type with its members. -/
structure TypeDecl where
  head : TypeHead
  symbol : Symbol
  place : Position
  members : List Member := []
  values : List EnumMember := []
  invoke : Option Symbol := none
deriving Inhabited

def TypeDecl.type (d : TypeDecl) : Ty := .named d.head

/-- A resolved document: the types to emit, and everything that they may refer to. -/
structure Compilation where
  world : World
  types : List TypeDecl

namespace Compilation

/-! ## Types -/

/-- A draft of a type with the definition it is about. -/
structure Entry where
  draft : TypeDraft
  type : Ty
  isExternal : Bool

def Entry.isBuiltin (e : Entry) : Bool := (Ty.builtins.lookup e.type.definitionKey).isSome

/-- Enters a type. An external declaration may be about a type that is known. -/
def declareType (w : World) (isExternal : Bool) (d : TypeDraft) : Except Fault (World × Entry) := do
  match DeclKind.ofText? d.kind with
  | none => throw (w.problem d.line (.unknownTypeKind d.kind d.name))
  | some kind =>
    if d.name = "" then throw (w.problem d.line .typeWithoutName)
    else
      match w.index.find? d.name d.typeParameters.length with
      | some t =>
        if isExternal then pure (w, ⟨d, t, true⟩)
        else throw (w.problem d.line (.typeDeclaredTwice d.name))
      | none =>
        let (space, name) := splitQualified d.name
        let head : TypeHead := { kind, space, name, params := d.typeParameters, rename := d.rename }
        pure ({ w with index := w.index.add head }, ⟨d, .named head, isExternal⟩)

/-- Enters the types of a list. A missing one is a crash. -/
def declareTypes (isExternal : Bool) : List (Option TypeDraft) → World → Except Fault (World × List Entry)
  | [], w => pure (w, [])
  | none :: _, _ => throw (.crash none)
  | some d :: rest, w => do
    let (w, e) ← declareType w isExternal d
    let (w, es) ← declareTypes isExternal rest w
    pure (w, e :: es)

/-! ## Supertypes -/

def scopeOf (w : World) (params : List String) (t : Ty) : TypeExpr.Scope where
  index := w.index
  hierarchy := w.hierarchy
  usings := w.usings
  params
  space := t.space

def addInterfaces (e : Entry) (head : TypeHead) : List String → World → Except Fault World
  | [], w => pure w
  | text :: rest, w => do
    let t ← TypeExpr.readAt (scopeOf w e.draft.typeParameters e.type) (w.place e.draft.line 0) text
    let s := w.hierarchy.supers head
    addInterfaces e head rest
      { w with hierarchy := w.hierarchy.set head { s with interfaces := s.interfaces ++ [t] } }

/-- Enters the supertypes of a declaration: the base, which may turn out to be an interface, and then the
interfaces. -/
def declareSupertypes (w : World) (e : Entry) : Except Fault World := do
  match e.isBuiltin, e.type with
  | false, .named head =>
    let w ←
      if e.draft.base = "" then pure w
      else do
        let t ← TypeExpr.readAt (scopeOf w e.draft.typeParameters e.type) (w.place e.draft.line 0) e.draft.base
        let s := w.hierarchy.supers head
        let s := if t.isDecl .interfaceDecl then { s with interfaces := s.interfaces ++ [t] }
          else { s with base := some t }
        pure { w with hierarchy := w.hierarchy.set head s }
    addInterfaces e head e.draft.interfaces w
  | _, _ => pure w

/-! ## Members -/

/-- A parameter. Its default value is resolved outside of any type. -/
def declareParameter (params : List String) (space : String) (line : Int) (p : ParameterDraft Draft)
    (w : World) : Except Fault (World × Parameter) := do
  let scope : TypeExpr.Scope := { index := w.index, hierarchy := w.hierarchy, usings := w.usings, params, space }
  let type ← TypeExpr.readAt scope (w.place line 0) p.type
  match Passing.ofText? p.passing, CallerInfo.ofText? p.callerInfo with
  | none, _ => throw (w.problem line (.unknownPassing "parameter" p.passing))
  | _, none => throw (w.problem line (.unknownCallerInfo p.callerInfo))
  | some passing, some callerInfo =>
    if p.isVariadic && !type.isArray then throw (w.problem line (.variadicNotArray p.name))
    else
      let parameter : Parameter := {
        name := p.name, type, passing, isVariadic := p.isVariadic
        isOptional := p.isOptional || p.default.isSome || callerInfo.isSome
        isThis := p.isThis, callerInfo }
      match p.default with
      | none => pure (w, parameter)
      | some d =>
        let (e, _) ← ((Resolve.expr d (some type)).run { world := w, params, space }).run {}
        match e.form with
        | .literal c => pure (w, { parameter with default := some (.constant c) })
        | _ =>
          pure ({ w with defaults := w.defaults.push e },
            { parameter with default := some (.expression w.defaults.size e.static) })

def declareParameters (params : List String) (space : String) (line : Int) :
    List (Option (ParameterDraft Draft)) → World → Except Fault (World × List Parameter)
  | [], w => pure (w, [])
  | none :: _, _ => throw (.crash none)
  | some p :: rest, w => do
    let (w, p) ← declareParameter params space line p w
    let (w, ps) ← declareParameters params space line rest w
    pure (w, p :: ps)

/-- The symbol of a member. Members of an interface are public unless they say otherwise, and abstract. -/
def declareSymbol (e : Entry) (kind : SymbolKind) (m : MemberDraft) (w : World) :
    Except Fault (World × Symbol) := do
  let t := e.type
  let isInterface := t.isDecl .interfaceDecl
  let name :=
    match kind with
    | .constructor => ".ctor"
    | .operator => operatorMethod m.name m.parameters.length
    | _ => m.name
  if name = "" then throw (w.problem m.line (.memberWithoutName m.kind t.key))
  else
    let params := e.draft.typeParameters ++ m.typeParameters
    let typeText := if m.returns = "" then m.type else m.returns
    let type ←
      if typeText ≠ "" then TypeExpr.readAt (scopeOf w params t) (w.place m.line 0) typeText
      else if kind = .method || kind = .constructor then pure .void
      else throw (w.problem m.line (.memberWithoutType m.name t.key))
    let (w, parameters) ← declareParameters params t.space m.line m.parameters w
    pure (w, {
      id := m.id, kind, name, container := some t, type := some type, parameters
      typeParameters := m.typeParameters
      access := if isInterface && m.access = "" then .public else Access.ofText m.access
      isStatic := m.isStatic || kind = .operator
      isExtension := m.isExtension
      isVirtual := m.isVirtual
      isAbstract := m.isAbstract || isInterface
      isOverride := m.isOverride
      isWeak := m.isWeak
      isReadOnly := m.isReadOnly
      rename := m.rename })

/-- The members of a declaration, entered in order. A missing one is a crash. -/
def declareMemberList (e : Entry) : List (Option MemberDraft) → World → Except Fault (World × List Member)
  | [], w => pure (w, [])
  | none :: _, _ => throw (.crash none)
  | some m :: rest, w => do
    match MemberKind.ofText? m.kind with
    | none => throw (w.problem m.line (.unknownMemberKind m.kind e.draft.name))
    | some kind =>
      let (w, symbol) ← declareSymbol e kind.symbolKind m w
      let w := w.addMember e.type.definitionKey symbol
      let (w, members) ← declareMemberList e rest w
      pure (w, { kind, symbol, place := w.place m.line 0 } :: members)

def declareValues (t : Ty) (values : List EnumValueDraft) (w : World) : World :=
  values.foldl (fun w v => w.addMember t.definitionKey {
    kind := .enumValue, name := v.name, container := some t, type := some t
    access := .public, isStatic := true }) w

/-- The signature of a delegate: a method called `Invoke`, of which only the return type and the
parameters are the document's. -/
def declareInvoke (e : Entry) (w : World) : Except Fault (World × Option Symbol) :=
  match e.draft.invoke with
  | none => pure (w, none)
  | some m => do
    let (w, s) ← declareSymbol e .method
      { kind := "method", name := "Invoke", returns := m.returns, parameters := m.parameters
        access := "public", line := m.line } w
    pure ({ w with invokes := assocSet e.type.definitionKey s w.invokes }, some s)

def declareMembers (w : World) (e : Entry) : Except Fault (World × TypeDecl) := do
  let t := e.type
  let key := t.definitionKey
  let d := e.draft
  let symbol : Symbol := {
    kind := .type, name := t.name, type := some t
    access := if d.access = "" then .public else Access.ofText d.access
    rename := d.rename }
  let w := { w with typeSymbols := assocSet key symbol w.typeSymbols }
  let w := declareValues t d.values w
  let (w, invoke) ← declareInvoke e w
  let (w, members) ← declareMemberList e d.members w
  let hasConstructor := members.any fun m => m.kind = .constructor && !m.symbol.isStatic
  let w :=
    if !hasConstructor && !e.isExternal && (t.isDecl .classDecl || t.isDecl .structDecl) then
      w.addMember key { kind := .constructor, name := ".ctor", container := some t, access := .public }
    else w
  pure (w, {
    head := t.head?.getD default
    symbol
    place := w.place d.line 0
    members
    values := d.values.map fun v => { name := v.name, value := if v.value = "" then none else some v.value }
    invoke })

/-! ## Bodies -/

def declareLocals (parameters : List Parameter) : Resolve Unit :=
  parameters.forM fun p => Resolve.declare { kind := .parameter, name := p.name, type := some p.type }

/-- A block that may be missing, in which returned values are converted to a type. -/
def bodyOf (d : Option Draft) (returns : Option Ty) : Resolve (Option Stmt) :=
  match d with
  | none => pure none
  | some d => do
    modify ({ · with returns })
    pure (some (← Resolve.block d))

def initializerOf (m : MemberDraft) (type : Option Ty) : Resolve (Option Expr) :=
  match m.initializer with
  | none => pure none
  | some d => do pure (some (← Resolve.expr d type))

/-- The trees of a member. Which of its drafts count depends on its kind. -/
def resolveMember (d : MemberDraft) (m : Member) : Resolve Member :=
  Resolve.nested do
    declareLocals m.symbol.parameters
    let type := m.symbol.type
    match m.kind with
    | .field | .event => do pure { m with initializer := ← initializerOf d type }
    | .property =>
      let initializer ← initializerOf d type
      let getter ← bodyOf d.getter type
      let setter ← Resolve.nested do
        Resolve.declare { kind := .parameter, name := "value", type }
        bodyOf d.setter (some .void)
      pure { m with initializer, getter, setter }
    | .constructor =>
      modify ({ · with returns := some .void })
      let chain ←
        match d.chain with
        | none => pure none
        | some c => do pure (some (← Resolve.chain c d.line))
      let body ← bodyOf d.body (some .void)
      pure { m with chain, body }
    | .method | .operator => do pure { m with body := ← bodyOf d.body type }

def resolveMembers (w : World) (e : Entry) : List (Option MemberDraft) → List Member →
    Except Fault (List Member)
  | some d :: ds, m :: ms => do
    let here : Surroundings := {
      world := w, self := some e.type, params := e.draft.typeParameters ++ d.typeParameters
      space := e.type.space }
    let (m, _) ← ((resolveMember d m).run here).run {}
    let ms ← resolveMembers w e ds ms
    pure (m :: ms)
  | _, _ => pure []

def resolveBodies (w : World) : List (Entry × TypeDecl) → Except Fault (List TypeDecl)
  | [] => pure []
  | (e, d) :: rest => do
    let members ← resolveMembers w e e.draft.members d.members
    let rest ← resolveBodies w rest
    pure ({ d with members } :: rest)

/-! ## Loading -/

def declareAllMembers : List Entry → World → Except Fault (World × List (Entry × TypeDecl))
  | [], w => pure (w, [])
  | e :: es, w => do
    let (w, d) ← declareMembers w e
    let (w, ds) ← declareAllMembers es w
    pure (w, (e, d) :: ds)

def standardUsings : List String := ["System", "System.Collections.Generic"]

/-- **A document resolved**, beside the declarations of a prelude. -/
def ofDocument (prelude : List TypeDraft) (file : String) (doc : Document) : Except Fault Compilation := do
  let w : World := { file, usings := standardUsings ++ doc.usings }
  let externals := prelude.map some ++ doc.externals
  if externals.any (·.isNone) then throw (.crash none)
  else
    let (w, known) ← declareTypes true externals w
    let (w, own) ← declareTypes false doc.types w
    let w ← (known ++ own).foldlM declareSupertypes w
    let (w, _) ← declareAllMembers known w
    let (w, own) ← declareAllMembers own w
    pure { world := w, types := ← resolveBodies w own }

end Compilation

end Polyglot
