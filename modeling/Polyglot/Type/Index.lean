import Polyglot.Type.Basic

/-!
# The index of definitions

Definitions are found by qualified name and number of type parameters, or by simple name. The index
also knows which qualified names are declared at more than one number of parameters: targets that
cannot overload a name by it tell such declarations apart by a suffix.
-/

namespace Polyglot

/-- An association list with one row per key, in order of first insertion. -/
def assocSet {α β : Type} [BEq α] (key : α) (value : β) : List (α × β) → List (α × β)
  | [] => [(key, value)]
  | (k, v) :: rest => if k == key then (k, value) :: rest else (k, v) :: assocSet key value rest

/-- The index: definitions by key, the numbers of parameters of each qualified name, and the preferred
definition of each simple name. -/
structure TypeIndex where
  byKey : List (String × Ty) := Ty.builtins
  arities : List (String × List Nat) := []
  byName : List (String × TypeHead) := []
deriving Repr

namespace TypeIndex

/-- The index with a definition added. A later definition replaces one with the same key; a simple name
prefers a definition without type parameters, else the first. -/
def add (idx : TypeIndex) (h : TypeHead) : TypeIndex where
  byKey := assocSet h.key (.named h) idx.byKey
  arities :=
    let known := (idx.arities.lookup h.qualified).getD []
    if known.contains h.arity then idx.arities else assocSet h.qualified (known ++ [h.arity]) idx.arities
  byName :=
    if (idx.byName.lookup h.name).isNone || h.arity = 0 then assocSet h.name h idx.byName else idx.byName

def find? (idx : TypeIndex) (qualified : String) (arity : Nat) : Option Ty :=
  idx.byKey.lookup (arityKey qualified arity)

def findSimple? (idx : TypeIndex) (name : String) : Option TypeHead := idx.byName.lookup name

def collides (idx : TypeIndex) (t : Ty) : Bool :=
  ((idx.arities.lookup t.qualified).getD []).length > 1

def definitions (idx : TypeIndex) : List Ty :=
  ((idx.byKey.filter fun row => (Ty.builtins.lookup row.1).isNone).map (·.2)).mergeSort
    (fun a b => !Text.before b.definitionKey a.definitionKey)

def enclosing : Nat → String → List String
  | 0, _ => []
  | fuel + 1, space => if space = "" then [] else space :: enclosing fuel (splitQualified space).1

/-- The definition that a name means inside a namespace: there and in the enclosing namespaces, then in
the imported ones, then globally. -/
def resolve? (idx : TypeIndex) (usings : List String) (name : String) (arity : Nat) (space : String) :
    Option Ty :=
  let spaces := enclosing (space.length + 1) space ++ usings
  match spaces.findSome? (fun s => idx.find? (s ++ "." ++ name) arity) with
  | some t => some t
  | none => idx.find? name arity

end TypeIndex

end Polyglot
