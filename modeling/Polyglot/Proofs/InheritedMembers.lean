import Polyglot.Proofs.Ancestry

/-!
# Inherited members

The supertypes of a type are its ancestors, where of several ancestors with one key the first counts. The members of a
type follow them: first those that it declares itself, and then, for every key that an ancestor has, those that the
definition of the ancestor declares.
-/

namespace Polyglot

open List Relation

namespace Hierarchy

variable {H : Hierarchy} {s t : Ty}

theorem key_not_mem_distinct {seen : List String} {ts : List Ty} {k : String} (before : k ∈ seen) :
    k ∉ (distinct seen ts).map Ty.key := by
  intro mem
  exact (exists_mem_distinct.mp (mem_map.mp mem)).1 before

theorem nodup_keys_distinct (seen : List String) (ts : List Ty) : ((distinct seen ts).map Ty.key).Nodup := by
  induction ts generalizing seen with
  | nil => exact nodup_nil
  | cons t ts ih =>
    rw [distinct]
    split
    · exact ih seen
    · exact nodup_cons.mpr ⟨key_not_mem_distinct mem_cons_self, ih _⟩

theorem distinct_sublist (seen : List String) (ts : List Ty) : (distinct seen ts).Sublist ts := by
  induction ts generalizing seen with
  | nil => exact .slnil
  | cons t ts ih =>
    rw [distinct]
    split
    · exact (ih seen).cons t
    · exact (ih _).cons_cons t

/-- **Supertypes are reached** by one or more steps, with or without cycles. -/
theorem transGen_of_mem_supertypes (mem : s ∈ H.supertypes t) : TransGen H.Super t s :=
  transGen_of_mem_ancestorsWithin ((distinct_sublist [] _).subset mem)

end Hierarchy

namespace World

variable {w : World} {t : Ty}

theorem membersOf_eq (w : World) (t : Ty) : w.membersOf t =
      w.declared t.definitionKey ++ (w.hierarchy.supertypes t).flatMap fun s => w.declared s.definitionKey :=
  flatMap_cons

/-- Where the key of an ancestor tells its definition, members are listed by keys. -/
theorem membersOf_eq_of_keys {definitionOf : String → String}
    (tells : ∀ s, TransGen w.hierarchy.Super t s → definitionOf s.key = s.definitionKey) : w.membersOf t =
      w.declared t.definitionKey ++ ((w.hierarchy.supertypes t).map Ty.key).flatMap fun k => w.declared (definitionOf k) := by
  rw [membersOf_eq, flatMap_map]
  congr 1
  refine flatMap_congr fun s mem => ?_
  rw [tells s (Hierarchy.transGen_of_mem_supertypes mem)]

/-- **The supertypes of a type are its ancestors, each key once**: where nothing above the type is its own ancestor, no
two of them have one key, and their keys are exactly those of the types that are reached by one or more steps to a
direct supertype. Its members are its own and then those of the definition of each supertype, that is, where a key
tells the definition, those of one definition for every key that an ancestor has. -/
theorem ancestors_listed_once (acyclic : w.hierarchy.AcyclicFrom t) :
    ((w.hierarchy.supertypes t).map Ty.key).Nodup ∧
      (∀ k, k ∈ (w.hierarchy.supertypes t).map Ty.key ↔ ∃ s, TransGen w.hierarchy.Super t s ∧ s.key = k) ∧
      (∀ s ∈ w.hierarchy.supertypes t, TransGen w.hierarchy.Super t s) ∧
      w.membersOf t =
        w.declared t.definitionKey ++ ((w.hierarchy.supertypes t).flatMap fun s => w.declared s.definitionKey) ∧
      ∀ definitionOf : String → String,
        (∀ s, TransGen w.hierarchy.Super t s → definitionOf s.key = s.definitionKey) →
        w.membersOf t = w.declared t.definitionKey ++
          ((w.hierarchy.supertypes t).map Ty.key).flatMap fun k => w.declared (definitionOf k) := by
  refine ⟨Hierarchy.nodup_keys_distinct [] _, fun k => ?_, fun s => Hierarchy.transGen_of_mem_supertypes,
    membersOf_eq w t, fun definitionOf => membersOf_eq_of_keys⟩
  rw [mem_map]
  exact Hierarchy.exists_mem_supertypes_iff acyclic k

/-! ## Two ways to one interface -/

namespace Diamond

def source : TypeHead := ⟨.interfaceDecl, "N", "ISource", [], ""⟩

def first : TypeHead := ⟨.interfaceDecl, "N", "IFirst", ["T"], ""⟩

def second : TypeHead := ⟨.interfaceDecl, "N", "ISecond", [], ""⟩

def node : TypeHead := ⟨.classDecl, "N", "Node", [], ""⟩

def firstOf (t : Ty) : Ty := .closed first [t] none [.named source]

/-- A class that has an interface through two others, one of them generic. -/
def world : World where
  hierarchy := { rows := [
    (first.key, ⟨none, [.named source]⟩), (second.key, ⟨none, [.named source]⟩),
    (node.key, ⟨some .object, [firstOf .string, .named second]⟩)] }
  members := [
    (source.key, [{ kind := .method, name := "Read" }]), (first.key, [{ kind := .method, name := "First" }]),
    (second.key, [{ kind := .method, name := "Second" }]), (node.key, [{ kind := .method, name := "Next" }])]

def types : List Ty := [.object, .named source, firstOf .string, .named second, .named node]

theorem direct_source : world.hierarchy.direct (.named source) = {} := rfl

theorem direct_second : world.hierarchy.direct (.named second) = ⟨none, [.named source]⟩ := rfl

theorem direct_node : world.hierarchy.direct (.named node) = ⟨some .object, [firstOf .string, .named second]⟩ := rfl

theorem direct_mem : ∀ t ∈ types, ∀ s, world.hierarchy.Super t s → s ∈ types := by
  simp only [types, forall_mem_cons, Hierarchy.Super, direct_source, direct_second, direct_node, firstOf]
  simp [Hierarchy.direct, Hierarchy.Supers.toList]

theorem acyclicFrom_node : world.hierarchy.AcyclicFrom (.named node) := by
  -- In the list every type stands behind its direct supertypes.
  let place (t : Ty) : Nat := (types.map Ty.key).idxOf t.key
  have lower : ∀ t ∈ types, ∀ s ∈ Hierarchy.Supers.toList (world.hierarchy.direct t), place s < place t := by
    decide +kernel
  exact Hierarchy.acyclicFrom_of_lower direct_mem lower (by simp [types])

theorem node_ancestors_listed_once :
    world.hierarchy.AcyclicFrom (.named node) ∧
      (world.hierarchy.ancestors (.named node)).map Ty.key =
        ["System.Object", "N.IFirst<System.String>", "N.ISecond", "N.ISource", "N.ISource"] ∧
      ((world.hierarchy.supertypes (.named node)).map Ty.key).Nodup ∧
      "N.ISource" ∈ (world.hierarchy.supertypes (.named node)).map Ty.key ∧
      (world.membersOf (.named node)).map (·.name) = ["Next", "First", "Second", "Read"] := by
  obtain ⟨nodup, keys, -, members, -⟩ := ancestors_listed_once acyclicFrom_node
  have step : world.hierarchy.Super (.named node) (.named second) := by
    simp [Hierarchy.Super, direct_node, Hierarchy.Supers.toList]
  have next : world.hierarchy.Super (.named second) (.named source) := by
    simp [Hierarchy.Super, direct_second, Hierarchy.Supers.toList]
  refine ⟨acyclicFrom_node, by decide +kernel, nodup, (keys _).mpr ⟨.named source, .head step (.single next), rfl⟩, ?_⟩
  decide +kernel

end Diamond

end World

end Polyglot
