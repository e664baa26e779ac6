import Polyglot.Emit.Basic

/-!
# Names and zero values

The name of a declared thing in the emitted code, types that stand in expressions, and the value of a
variable that nothing is assigned to.
-/

namespace Polyglot

/-- The suffix of the member with a key in a list of members: how many members of the same kind and name
come before it. -/
def overloadSuffixIn (key : String) (kind : SymbolKind) (name : String) : (before : Nat) → List Symbol → String
  | _, [] => ""
  | before, m :: rest =>
    if m.key = key then (if before = 0 then "" else "_" ++ Text.decimal before)
    else overloadSuffixIn key kind name (if m.kind = kind && m.name = name then before + 1 else before) rest

/-- **The suffix that tells overloads apart** in a target without overloading: the first one has none. -/
def World.overloadSuffix (w : World) (s : Symbol) : String :=
  match s.container with
  | none => ""
  | some t => overloadSuffixIn s.key s.kind s.name 0 (w.declared t.definitionKey)

def Scene.symbolName (scene : Scene) (s : Symbol) : String :=
  let t := scene.target
  let simple := fun (type : Option Ty) => (type.map (t.simpleName scene.world.index)).getD ""
  if s.rename ≠ "" then s.rename
  else
    match t, s.kind with
    | .rust, .method => t.fitted s.name ++ scene.world.overloadSuffix s
    | .rust, .constructor => "new" ++ scene.world.overloadSuffix s
    | .rust, .operator => s.name
    | _, .constructor => simple s.container
    | _, .type => simple s.type
    | _, .enumValue => t.identifier s.name
    | _, _ => t.fitted s.name

namespace Emit

def symbolName (s : Symbol) : Emit String := do pure ((← read).symbolName s)

def fitted (name : String) : Emit String := do pure ((← target).fitted name)

/-- A type where a member of it is used. TypeScript needs the class itself then. -/
def typeReference (t : Option Ty) : Emit String := do
  let tgt ← target
  if tgt = .typescript then noteFull t else note t
  match t with
  | none => pure tgt.dynamicType
  | some t => pure (tgt.openName (← index) .value t)

def literal (c : Constant) (t : Option Ty) : Emit String := do pure ((← target).literal c t)

def cppDefault (t : Option Ty) : Emit String := do
  match t with
  | none => pure "nullptr"
  | some .string => pure "std::string()"
  | some .dynamic => pure "std::any()"
  | some (.primitive .char) => pure "u'\\0'"
  | some (.param _) => do pure ((← typeName t) ++ "()")
  | some type =>
    if type.isDecl .structDecl then do pure ((← typeName t) ++ "()")
    else if type.isDecl .enumDecl then do pure ("static_cast<" ++ (← typeName t) ++ ">(0)")
    else do pure ((← target).plainDefault t)

def csharpDefault (t : Option Ty) : Emit String := do
  if t.any (fun t => t.isParam || t.isDecl .structDecl || t.isDecl .enumDecl) then
    pure ("default(" ++ (← typeName t) ++ ")")
  else pure ((← target).plainDefault t)

def rustDefault : Option Ty → String
  | some (.primitive p) => if p = .bool then "false" else if p.isFloating then "0.0" else "0"
  | some .string => "String::new()"
  | some (.array _) => "Rc::new(RefCell::new(Vec::new()))"
  | _ => "Default::default()"

def typescriptDefault (t : Option Ty) : String :=
  match t with
  | some (.primitive .char) => "\"\\0\""
  | some (.primitive p) => if p.isNumeric then "0" else Target.plainDefault .typescript t
  | _ => Target.plainDefault .typescript t

def defaultValue (t : Option Ty) : Emit String := do
  match ← target with
  | .cpp => cppDefault t
  | .csharp => csharpDefault t
  | .java => pure (Target.plainDefault .java t)
  | .rust => pure (rustDefault t)
  | .typescript => pure (typescriptDefault t)

end Emit

end Polyglot
