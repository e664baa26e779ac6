import Polyglot.Proofs.ImportSet
import Polyglot.Proofs.TypeKeys

/-!
# What the index holds

The index is three tables, each with keys of its own, that are filled together. Here they are compared with the definitions
that were added. A key joins a name and a number of type parameters with a backtick; so where a name has a backtick of its own,
another definition may be found.
-/

namespace Polyglot.TypeIndex

open List

/-- The index of definitions that were added one after the other, the latest of which stands first. -/
def ofHeads (added : List TypeHead) : TypeIndex := added.foldr (fun h idx => idx.add h) {}

/-- What a name and a number of type parameters ask for: the latest such definition, or else what is built in. -/
def wanted? (added : List TypeHead) (q : String) (n : Nat) : Option Ty :=
  ((added.find? fun h => h.qualified = q && h.arity = n).map .named).or (Ty.builtins.lookup (arityKey q n))

/-- The definition was added, and none with its key after it. -/
def IsCurrent (added : List TypeHead) (h : TypeHead) : Prop := added.find? (·.key = h.key) = some h

variable (added : List TypeHead) {h : TypeHead} {q k : String} {n : Nat} {t : Ty}

theorem lookup_ofHeads (k : String) :
    (ofHeads added).byKey.lookup k = ((added.find? (·.key = k)).map Ty.named).or (Ty.builtins.lookup k) := by
  induction added with
  | nil => rfl
  | cons h earlier ih =>
    rw [ofHeads, foldr_cons, lookup_add, ← ofHeads, ih, find?_cons]
    by_cases here : k = h.key
    · simp [here]
    · simp [here, Ne.symm here]

/-- What a simple name means after one more definition. -/
theorem findSimple?_add (idx : TypeIndex) (h : TypeHead) (name : String) : (idx.add h).findSimple? name =
    if h.name = name then if h.arity = 0 then some h else (idx.findSimple? name).or (some h) else idx.findSimple? name := by
  unfold findSimple? add
  by_cases here : h.name = name
  · subst here
    by_cases plain : h.arity = 0
    · simp [plain, lookup_assocSet]
    · cases known : idx.byName.lookup h.name <;> simp [plain, known, lookup_assocSet]
  · split <;> simp [Ne.symm here, lookup_assocSet]

theorem findSimple?_ofHeads (name : String) : (ofHeads added).findSimple? name =
    (added.find? fun h => h.name = name && h.arity = 0).or (added.reverse.find? (·.name = name)) := by
  induction added with
  | nil => rfl
  | cons h earlier ih =>
    rw [ofHeads, foldr_cons, findSimple?_add, ← ofHeads, ih, reverse_cons, find?_cons, find?_append]
    by_cases here : h.name = name
    · by_cases plain : h.arity = 0 <;> simp [here, plain]
    · simp [here]

theorem aritiesOf_ofHeads (q : String) : ((ofHeads added).aritiesOf q).Nodup ∧
    ∀ n, n ∈ (ofHeads added).aritiesOf q ↔ ∃ h ∈ added, h.qualified = q ∧ h.arity = n := by
  induction added with
  | nil => exact ⟨.nil, fun _ => ⟨nofun, nofun⟩⟩
  | cons h earlier ih =>
    obtain ⟨distinct, mem⟩ := ih
    rw [ofHeads, foldr_cons, aritiesOf_add, ← ofHeads]
    split
    · next fresh => exact ⟨concat_eq_append ▸ distinct.concat fresh.2, by grind⟩
    · exact ⟨distinct, by grind⟩

theorem collides_ofHeads (declared : t.head? = some h) : (ofHeads added).collides t = true ↔
    ∃ a ∈ added, ∃ b ∈ added, a.qualified = h.qualified ∧ b.qualified = h.qualified ∧ a.arity ≠ b.arity := by
  have same : (ofHeads added).collides t = (ofHeads added).collides (.named h) := by cases t <;> cases declared <;> rfl
  obtain ⟨distinct, mem⟩ := aritiesOf_ofHeads added h.qualified
  rw [same]
  constructor
  · intro more
    have long : 1 < ((ofHeads added).aritiesOf h.qualified).length := of_decide_eq_true more
    obtain ⟨a, ha, qa, first⟩ := (mem _).mp (getElem_mem (Nat.zero_lt_of_lt long))
    obtain ⟨b, hb, qb, second⟩ := (mem _).mp (getElem_mem long)
    refine ⟨a, ha, b, hb, qa, qb, fun same => ?_⟩
    rw [first, second] at same
    exact absurd (distinct.getElem_inj_iff.mp same) Nat.zero_ne_one
  · rintro ⟨a, ha, b, hb, qa, qb, ne⟩
    exact collides_of_mem ((mem _).mpr ⟨a, ha, qa, rfl⟩) ((mem _).mpr ⟨b, hb, qb, rfl⟩) ne

/-! ## Definitions -/

theorem nodup_keys_ofHeads : ((ofHeads added).byKey.map Prod.fst).Nodup := by
  induction added with
  | nil => decide
  | cons h earlier ih =>
    rw [ofHeads, foldr_cons, add, Imports.map_fst_assocSet, ← ofHeads]
    split
    · exact ih
    · next fresh => exact concat_eq_append ▸ ih.concat fresh

variable {added}

/-- A row of what is not built in is the current definition with its key. -/
theorem mem_rows_ofHeads (declared : Ty.builtins.lookup k = none) :
    (k, t) ∈ (ofHeads added).byKey ↔ ∃ h, t = .named h ∧ h.key = k ∧ IsCurrent added h := by
  have row : (k, t) ∈ (ofHeads added).byKey ↔ (ofHeads added).byKey.lookup k = some t :=
    ⟨lookup_of_mem (nodup_keys_ofHeads added), mem_of_lookup⟩
  rw [row, lookup_ofHeads, declared, Option.or_none, Option.map_eq_some_iff]
  constructor
  · rintro ⟨h, latest, rfl⟩
    obtain rfl : h.key = k := by simpa using find?_some latest
    exact ⟨h, rfl, rfl, latest⟩
  · rintro ⟨h, rfl, rfl, current⟩
    exact ⟨h, current, rfl⟩

theorem definitions_ofHeads_pairwise :
    (ofHeads added).definitions.Pairwise fun a b => a.definitionKey < b.definitionKey := by
  refine mergeSort_pairwise_lt ?_
  rw [map_map]
  refine map_congr_left (fun row mem => ?_) ▸ (nodup_keys_ofHeads added).sublist (filter_sublist.map Prod.fst)
  obtain ⟨mem, declared⟩ := mem_filter.mp mem
  obtain ⟨h, named, key, -⟩ := (mem_rows_ofHeads (Option.isNone_iff_eq_none.mp declared)).mp mem
  rw [Function.comp, named, ← key]
  rfl

section

variable (own : ∀ h ∈ added, Ty.builtins.lookup h.key = none)
include own

theorem mem_definitions_ofHeads {t : Ty} :
    t ∈ (ofHeads added).definitions ↔ ∃ h, t = .named h ∧ IsCurrent added h := by
  simp only [definitions, mem_mergeSort, mem_map, mem_filter, Option.isNone_iff_eq_none, Prod.exists]
  constructor
  · rintro ⟨k, _, ⟨row, declared⟩, rfl⟩
    obtain ⟨h, rfl, -, current⟩ := (mem_rows_ofHeads declared).mp row
    exact ⟨h, rfl, current⟩
  · rintro ⟨h, rfl, current⟩
    have declared := own h (mem_of_find?_eq_some current)
    exact ⟨h.key, _, ⟨(mem_rows_ofHeads declared).mpr ⟨h, rfl, rfl, current⟩, declared⟩, rfl⟩

theorem find?_ofHeads_iff : (ofHeads added).find? q n = wanted? added q n ↔
    ∀ h, added.find? (·.key = arityKey q n) = some h → h.qualified = q ∧ h.arity = n := by
  rw [find?, lookup_ofHeads, wanted?]
  have keyed (h : TypeHead) (both : (h.qualified = q && h.arity = n) = true) : h.key = arityKey q n := by
    rw [Bool.and_eq_true, decide_eq_true_eq, decide_eq_true_eq] at both
    rw [TypeHead.key, both.1, both.2]
  cases latest : added.find? (·.key = arityKey q n) with
  | none =>
    have missing : added.find? (fun h => h.qualified = q && h.arity = n) = none :=
      find?_eq_none.mpr fun h mem both => find?_eq_none.mp latest h mem (by simpa using keyed h both)
    simp [missing]
  | some h =>
    obtain ⟨key, later, earlier, parts, others⟩ := find?_eq_some_iff_append.mp latest
    rw [← of_decide_eq_true key, own h (mem_of_find?_eq_some latest), Option.or_none, Option.or_none]
    constructor
    · rintro same _ ⟨⟩
      obtain ⟨h', found, named⟩ := Option.map_eq_some_iff.mp same.symm
      cases named
      simpa using find?_some found
    · intro holds
      rw [find?_eq_some_iff_append.mpr ⟨by simpa using holds h rfl, later, earlier, parts, fun x mem => ?_⟩]
      have other := others x mem
      by_contra both
      simp [keyed x (by simpa using both)] at other

/-- **The index holds what was added to it.**
* It finds the latest definition of a name and a number of type parameters, or else what is built in, exactly when the latest one
  with their key has both; so always, as long as no name has a backtick.
* A simple name means a definition without type parameters, if there is one, or else the first of that name.
* A definition is ambiguous, and so is what it is applied to, exactly when its name came with two numbers of type parameters.
* The definitions are listed in strict order of their keys: the current ones, and nothing else. -/
theorem index_represents_iff :
    (∀ q n, (ofHeads added).find? q n = wanted? added q n ↔
      ∀ h, added.find? (·.key = arityKey q n) = some h → h.qualified = q ∧ h.arity = n) ∧
    ((∀ h ∈ added, arityMark ∉ h.qualified.toList) →
      ∀ q n, arityMark ∉ q.toList → (ofHeads added).find? q n = wanted? added q n) ∧
    (∀ name, (ofHeads added).findSimple? name =
      (added.find? fun h => h.name = name && h.arity = 0).or (added.reverse.find? (·.name = name))) ∧
    (∀ t h, t.head? = some h → ((ofHeads added).collides t = true ↔
      ∃ a ∈ added, ∃ b ∈ added, a.qualified = h.qualified ∧ b.qualified = h.qualified ∧ a.arity ≠ b.arity)) ∧
    ((ofHeads added).definitions.Pairwise fun a b => a.definitionKey < b.definitionKey) ∧
    ∀ t, t ∈ (ofHeads added).definitions ↔ ∃ h, t = .named h ∧ IsCurrent added h := by
  refine ⟨fun _ _ => find?_ofHeads_iff own, fun unmarked q n plain => (find?_ofHeads_iff own).mpr fun h latest => ?_,
    findSimple?_ofHeads added, fun _ _ declared => collides_ofHeads added declared, definitions_ofHeads_pairwise,
    fun _ => mem_definitions_ofHeads own⟩
  have key : h.key = arityKey q n := by simpa using find?_some latest
  exact Ty.arityKey_inj (unmarked h (mem_of_find?_eq_some latest)) plain key

end

/-- A class with a type parameter. -/
def box : TypeHead := ⟨.classDecl, "N", "Box", ["T"], ""⟩

/-- Of two classes of one name each is found, and both are ambiguous. -/
theorem index_represents_boxes : (∀ h ∈ [{ box with params := [] }, box], Ty.builtins.lookup h.key = none) ∧
    (ofHeads [{ box with params := [] }, box]).find? "N.Box" 1 = some (.named box) ∧
    (ofHeads [{ box with params := [] }, box]).collides (.closed box [.int] none []) = true := by
  have own : ∀ h ∈ [{ box with params := [] }, box], Ty.builtins.lookup h.key = none := by decide
  obtain ⟨-, finds, -, ambiguous, -⟩ := index_represents_iff own
  refine ⟨own, finds (by decide) "N.Box" 1 (by decide), (ambiguous _ box rfl).mpr ?_⟩
  exact ⟨box, by decide, { box with params := [] }, by decide, rfl, rfl, by decide⟩

/-- No class of that name was added, but one with that key. -/
theorem find?_box_key :
    (ofHeads [box]).find? "N.Box\x601" 0 = some (.named box) ∧ wanted? [box] "N.Box\x601" 0 = none := ⟨rfl, rfl⟩

end Polyglot.TypeIndex
