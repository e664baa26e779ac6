import Polyglot.Tree
import Polyglot.Type.Expr

/-!
# What names are resolved against

A `World` holds everything declared so far: the definitions, their supertypes and members, the
signatures of delegates and the default values of parameters. It grows while the declarations of a
document are entered and stands still while bodies are resolved.
-/

namespace Polyglot

/-- What is known of all declarations. -/
structure World where
  file : String := ""
  /-- The namespaces whose names may be used without them. -/
  usings : List String := []
  index : TypeIndex := {}
  hierarchy : Hierarchy := {}
  /-- The members of each definition, by its key, in order of declaration. -/
  members : List (String × List Symbol) := []
  /-- The symbols of declared types, by the key of the definition. -/
  typeSymbols : List (String × Symbol) := []
  /-- The signatures of delegates, by the key of the definition. -/
  invokes : List (String × Symbol) := []
  /-- The default values that are no constants, in order. -/
  defaults : Array Expr := #[]

namespace World

def place (w : World) (line column : Int) : Position := ⟨w.file, line, column⟩

def problem (w : World) (line : Int) (p : Problem) : Fault := .problem (some (w.place line 0)) p

def declared (w : World) (key : String) : List Symbol := (w.members.lookup key).getD []

def addMember (w : World) (key : String) (s : Symbol) : World :=
  { w with members := assocSet key (w.declared key ++ [s]) w.members }

/-- **The members of a type**: its own, then those of its supertypes. -/
def membersOf (w : World) (t : Ty) : List Symbol :=
  (t :: w.hierarchy.supertypes t).flatMap (fun s => w.declared s.definitionKey)

def find? (w : World) (name : String) (arity : Nat) (space : String) : Option Ty :=
  w.index.resolve? w.usings name arity space

/-- The members of a type with a name. Arrays have those of their class, what is bound late or is a
type parameter has those of an object. -/
def membersNamed (w : World) (t : Option Ty) (name : String) : List Symbol :=
  let t :=
    match t with
    | some (.array _) => w.find? "System.Array" 0 ""
    | some (.param _) | some .dynamic => some .object
    | t => t
  match t with
  | some t => (w.membersOf t).filter (·.name = name)
  | none => []

def candidates (w : World) (t : Option Ty) (name : String) (kind : SymbolKind) : List Symbol :=
  (w.membersNamed t name).filter (·.kind = kind)

def extensions (w : World) (receiver : Option Ty) (name : String) : List Symbol :=
  match receiver with
  | none => []
  | some t =>
    (w.members.flatMap (·.2)).filter fun s =>
      s.isExtension && s.name = name && (s.parameters.head?.any (fun p => w.hierarchy.assignable t p.type))

def typeSymbol (w : World) (t : Ty) : Symbol :=
  let unknown : Symbol := { kind := .type, name := t.name, type := some t, access := .public }
  match t with
  | .closed _ _ _ _ => unknown
  | _ => (w.typeSymbols.lookup t.definitionKey).getD unknown

def invoke? (w : World) (t : Option Ty) : Option Symbol :=
  match t with
  | some t => if t.isDecl .delegateDecl then w.invokes.lookup t.definitionKey else none
  | none => none

def baseOf (w : World) (t : Ty) : Option Ty := (w.hierarchy.direct t).base

def elementType (w : World) (t : Option Ty) : Option Ty :=
  match t with
  | none => none
  | some (.array e) => some e
  | some .string => some .char
  | some t =>
    let found := (t :: w.hierarchy.supertypes t).findSome? fun s =>
      match s.isEnumerable, s.typeArgs with
      | true, [a] => if a.isParam then none else some a
      | _, _ => none
    some (found.getD .object)

end World

end Polyglot
