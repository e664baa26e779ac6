import Polyglot.Type.Basic

/-!
# The hierarchy of types

A hierarchy gives each definition a base type and a list of interfaces. A definition applied to arguments
(`Hierarchy.instantiate?`) copies the supertypes that the definition has *at that moment* with the arguments put in.

Putting arguments into a supertype that mentions the definition itself would go on forever. Every
instantiation that ends needs no more nested steps than there are definitions, so `instantiate?` counts
them and gives nothing when it runs out.
-/

namespace Polyglot

/-- Which types stand for which type parameters; the first row for a name counts. -/
abbrev TypeEnv := List (String × Ty)

namespace TypeEnv

/-- Parameters and arguments side by side; of a repeated parameter the last one counts. -/
def ofParams (params : List String) (args : List Ty) : TypeEnv := (params.zip args).reverse

def get? (env : TypeEnv) (name : String) : Option Ty := env.lookup name

end TypeEnv

structure Supers where
  base : Option Ty := none
  interfaces : List Ty := []
deriving Repr

/-- A hierarchy: the definitions with supertypes of their own, by key. -/
structure Hierarchy where
  rows : List (String × Supers) := []
deriving Repr

namespace Hierarchy

def defaultSupers (head : TypeHead) : Supers :=
  if head.key = Ty.enumerableOfHead.key then { interfaces := [.named Ty.enumerableHead] }
  else
    match head.kind with
    | .classDecl | .delegateDecl => { base := some .object }
    | _ => {}

def supers (H : Hierarchy) (head : TypeHead) : Supers :=
  (H.rows.lookup head.key).getD (defaultSupers head)

def set (H : Hierarchy) (head : TypeHead) (s : Supers) : Hierarchy :=
  { rows := (head.key, s) :: H.rows.filter (·.1 ≠ head.key) }

end Hierarchy

/-! ## Substitution -/

namespace Ty

mutual

/-- A type with its parameters replaced; closed types are made anew by `close`. -/
def substituteWith (close : TypeHead → List Ty → Option Ty) (env : TypeEnv) : Ty → Option Ty
  | param n => some ((env.get? n).getD (param n))
  | array e => (substituteWith close env e).map array
  | closed h args base interfaces =>
    if args.isEmpty then some (closed h args base interfaces)
    else (substituteAllWith close env args).bind (close h)
  | t => some t

def substituteAllWith (close : TypeHead → List Ty → Option Ty) (env : TypeEnv) :
    List Ty → Option (List Ty)
  | [] => some []
  | t :: ts =>
    match substituteWith close env t, substituteAllWith close env ts with
    | some t, some ts => some (t :: ts)
    | _, _ => none

end

end Ty

namespace Hierarchy

/-- A definition applied to arguments, within a number of nested steps. When the numbers of parameters
and arguments differ, the supertypes are taken as they are. -/
def instantiateWithin (H : Hierarchy) : Nat → TypeHead → List Ty → Option Ty
  | 0, _, _ => none
  | fuel + 1, head, args =>
    let s := H.supers head
    if head.params.length = args.length then
      let env := TypeEnv.ofParams head.params args
      let put := fun t => if env.isEmpty then some t else Ty.substituteWith (instantiateWithin H fuel) env t
      match s.base.mapM put, s.interfaces.mapM put with
      | some base, some interfaces => some (.closed head args base interfaces)
      | _, _ => none
    else some (.closed head args s.base s.interfaces)

/-- No instantiation that ends has more nested steps. -/
def depth (H : Hierarchy) : Nat := H.rows.length + 2

/-- **A definition applied to arguments**, or nothing when that never ends. -/
def instantiate? (H : Hierarchy) (head : TypeHead) (args : List Ty) : Option Ty :=
  H.instantiateWithin H.depth head args

/-- **A type with its parameters replaced**, or nothing when that never ends. -/
def substitute? (H : Hierarchy) (env : TypeEnv) (t : Ty) : Option Ty :=
  if env.isEmpty then some t else t.substituteWith H.instantiate? env

end Hierarchy

/-- The parameters of the definition of a closed type, with its arguments; nothing when their numbers
differ or the type is not closed. -/
def Ty.env? : Ty → Option TypeEnv
  | .closed h args _ _ => if args.length = h.params.length then some (TypeEnv.ofParams h.params args) else none
  | _ => none

/-! ## Ancestors -/

namespace Hierarchy

def direct (H : Hierarchy) : Ty → Supers
  | .string | .array _ => { base := some .object }
  | .named h => H.supers h
  | .closed _ _ base interfaces => { base, interfaces }
  | _ => {}

def Supers.toList (s : Supers) : List Ty := s.base.toList ++ s.interfaces

mutual

/-- The ancestors of a type with repetitions: its direct supertypes, then the ancestors of its base,
then those of each interface. `jump` gives the ancestors of a definition. -/
def ancestorsWith (jump : TypeHead → List Ty) : Ty → List Ty
  | .string | .array _ => [.object]
  | .named h => jump h
  | .closed _ _ base interfaces =>
    base.toList ++ interfaces ++ ancestorsOpt jump base ++ ancestorsAll jump interfaces
  | _ => []

def ancestorsOpt (jump : TypeHead → List Ty) : Option Ty → List Ty
  | none => []
  | some t => ancestorsWith jump t

def ancestorsAll (jump : TypeHead → List Ty) : List Ty → List Ty
  | [] => []
  | t :: ts => ancestorsWith jump t ++ ancestorsAll jump ts

end

/-- The ancestors of a definition, within a number of steps from definition to definition. -/
def definitionAncestors (H : Hierarchy) : Nat → TypeHead → List Ty
  | 0, _ => []
  | fuel + 1, head =>
    let s := H.supers head
    let jump := definitionAncestors H fuel
    s.base.toList ++ s.interfaces ++ ancestorsOpt jump s.base ++ ancestorsAll jump s.interfaces

/-- The ancestors of a type, with repetitions. In a hierarchy without cycles no path passes more
definitions than there are. -/
def ancestors (H : Hierarchy) (t : Ty) : List Ty :=
  ancestorsWith (definitionAncestors H (H.rows.length + 3)) t

def distinct : (seen : List String) → List Ty → List Ty
  | _, [] => []
  | seen, t :: ts =>
    let k := t.key
    if seen.contains k then distinct seen ts else t :: distinct (k :: seen) ts

/-- **The supertypes of a type**: its ancestors, each key once, where it first comes. -/
def supertypes (H : Hierarchy) (t : Ty) : List Ty := distinct [] (H.ancestors t)

/-- **May a value of one type stand where another is wanted?** The same type, null for a reference,
anything for an untyped place, arrays of assignable references, and a reference for its supertypes. -/
def assignable (H : Hierarchy) : (t target : Ty) → Bool
  | .null, target => Ty.null.same target || target.isReferenceType
  | .array e, .array f => (Ty.array e).same (.array f) || (e.isReferenceType && assignable H e f)
  | t, target =>
    t.same target || target.isUntyped || (t.isReferenceType && (H.supertypes t).any (·.same target))

end Hierarchy

end Polyglot
