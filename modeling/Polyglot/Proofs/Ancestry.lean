import Polyglot.Proofs.Supertypes

/-!
# Ancestors

The ancestors of a type are computed by following direct supertypes, within a number of steps from definition to
definition. Where no type is its own ancestor that number is enough: ancestors are exactly the types that are reached
by one or more steps to a direct supertype, and the supertypes of a type have exactly their keys.
-/

namespace Polyglot

open List Relation

namespace Hierarchy

variable {H : Hierarchy}

/-- A direct supertype. -/
def Super (H : Hierarchy) (t s : Ty) : Prop := s ∈ Supers.toList (H.direct t)

variable {jump : TypeHead → List Ty} {h h' g : TypeHead} {s t : Ty} {n : Nat} {above : Ty → List Ty}

/-- Above a type that is not declared there is only the root. -/
theorem eq_object_of_super (plain : t.head? = none) (step : H.Super t s) : s = .object := by
  cases t with
  | named h => cases plain
  | closed h args base interfaces => cases plain
  | _ => simp_all [Super, direct, Supers.toList]

theorem eq_object_of_transGen (plain : t.head? = none) (reach : TransGen H.Super t s) : s = .object := by
  obtain ⟨u, step, rest⟩ := TransGen.head'_iff.mp reach
  obtain rfl := eq_object_of_super plain step
  rcases ReflTransGen.cases_head rest with same | ⟨v, next, -⟩
  · exact same.symm
  · cases next

/-! ## One step -/

theorem ancestorsAll_eq_flatMap (jump : TypeHead → List Ty) (ts : List Ty) :
    ancestorsAll jump ts = ts.flatMap (ancestorsWith jump) := by
  induction ts with
  | nil => rfl
  | cons t ts ih => rw [ancestorsAll, ih, flatMap_cons]

/-- What is listed for some direct supertypes: these, and their ancestors one after the other. -/
theorem through_eq (supers : Supers) : supers.base.toList ++ supers.interfaces ++ ancestorsOpt jump supers.base ++
        ancestorsAll jump supers.interfaces = Supers.toList supers ++ (Supers.toList supers).flatMap (ancestorsWith jump) := by
  obtain ⟨base | base, interfaces⟩ := supers
  all_goals simp [Supers.toList, ancestorsOpt, ancestorsAll_eq_flatMap]

abbrev ancestorsWithin (H : Hierarchy) (n : Nat) (t : Ty) : List Ty := ancestorsWith (H.definitionAncestors n) t

theorem ancestorsWithin_named : H.ancestorsWithin (n + 1) (.named h) = Supers.toList (H.direct (.named h)) ++
    (Supers.toList (H.direct (.named h))).flatMap (H.ancestorsWithin n) := by
  exact through_eq _

theorem ancestorsWithin_eq (plain : ∀ h, t ≠ .named h) : H.ancestorsWithin n t =
      Supers.toList (H.direct t) ++ (Supers.toList (H.direct t)).flatMap (H.ancestorsWithin n) := by
  cases t with
  | named h => exact absurd rfl (plain h)
  | closed h args base interfaces =>
    exact through_eq ⟨base, interfaces⟩
  | _ => simp [ancestorsWith, direct, Supers.toList]

theorem mem_through
    (mem : s ∈ Supers.toList (H.direct t) ++ (Supers.toList (H.direct t)).flatMap above) :
    ∃ u, H.Super t u ∧ (s = u ∨ s ∈ above u) := by
  rcases mem_append.mp mem with here | there
  · exact ⟨s, here, .inl rfl⟩
  · obtain ⟨u, hu, rest⟩ := mem_flatMap.mp there
    exact ⟨u, hu, .inr rest⟩

/-! ## What is listed is reached -/

theorem sizeOf_lt_of_carried {args interfaces : List Ty} {base : Option Ty} {u : Ty}
    (carried : H.Super (.closed h args base interfaces) u) : sizeOf u < sizeOf (Ty.closed h args base interfaces) := by
  have size := Ty.closed.sizeOf_spec h args base interfaces
  rcases mem_append.mp carried with here | here
  · obtain rfl : base = some u := Option.mem_toList.mp here
    have inside : sizeOf (some u) = 1 + sizeOf u := rfl
    omega
  · have inside : sizeOf u < sizeOf interfaces := sizeOf_lt_of_mem here
    omega

/-- **Ancestors are reached** by one or more steps, however many definitions may be passed. -/
theorem transGen_of_mem_ancestorsWithin {n : Nat} {t s : Ty} (mem : s ∈ H.ancestorsWithin n t) : TransGen H.Super t s := by
  cases t with
  | named h =>
    cases n with
    | zero => cases mem
    | succ n =>
      obtain ⟨u, step, rfl | rest⟩ := mem_through (ancestorsWithin_named ▸ mem)
      · exact .single step
      · exact .head step (transGen_of_mem_ancestorsWithin rest)
  | closed h args base interfaces =>
    rw [ancestorsWithin_eq (by rintro _ ⟨⟩)] at mem
    obtain ⟨u, step, rfl | rest⟩ := mem_through mem
    · exact .single step
    · have smaller := sizeOf_lt_of_carried step
      exact .head step (transGen_of_mem_ancestorsWithin rest)
  | _ =>
    rw [ancestorsWithin_eq (by rintro _ ⟨⟩)] at mem
    obtain ⟨u, step, rfl | rest⟩ := mem_through mem
    · exact .single step
    · rw [eq_object_of_super rfl step] at rest
      cases rest
termination_by (n, sizeOf t)

/-! ## Ranks -/

def inheritors (H : Hierarchy) : List String := Ty.enumerableOfHead.key :: H.keys

theorem supers_eq_of_key (mem : h.key ∈ H.inheritors) (key : h.key = h'.key) : H.supers h = H.supers h' := by
  by_cases row : h.key ∈ H.keys
  · exact supers_eq_of_mem_keys row key
  · have sequence : h.key = Ty.enumerableOfHead.key := (mem_cons.mp mem).resolve_right row
    rw [supers_of_not_mem_keys row, supers_of_not_mem_keys (key ▸ row), defaultSupers, defaultSupers,
      if_pos sequence, if_pos (key.symm.trans sequence)]

/-- The second definition is an ancestor of the first. -/
def Descends (H : Hierarchy) (h g : TypeHead) : Prop := TransGen H.Super (.named h) (.named g)

theorem Descends.mem_inheritors (descends : H.Descends h g) : h.key ∈ H.inheritors := by
  by_contra other
  obtain ⟨sequence, row⟩ := not_or.mp (mt mem_cons.mpr other)
  have object (u : Ty) (step : H.Super (.named h) u) : u = .object := by
    rw [Super, direct, supers_of_not_mem_keys row, defaultSupers, if_neg sequence] at step
    split at step <;> simp_all [Supers.toList]
  obtain ⟨u, step, rest⟩ := TransGen.head'_iff.mp descends
  rcases reflTransGen_iff_eq_or_transGen.mp (object u step ▸ rest) with same | rest
  · cases same
  · cases eq_object_of_transGen rfl rest

theorem Descends.of_key (descends : H.Descends h g) (key : h.key = h'.key) : H.Descends h' g := by
  obtain ⟨u, step, rest⟩ := TransGen.head'_iff.mp descends
  have there : H.Super (.named h') u := by
    rwa [Super, direct, ← supers_eq_of_key descends.mem_inheritors key]
  exact .head' there rest

/-- **No cycles above a type**: nothing that it reaches is reached again from itself. -/
def AcyclicFrom (H : Hierarchy) (t : Ty) : Prop := ∀ s, ReflTransGen H.Super t s → ¬ TransGen H.Super s s

theorem acyclicFrom_of_lower {types : List Ty} {place : Ty → Nat} (keeps : ∀ t ∈ types, ∀ s, H.Super t s → s ∈ types)
    (lower : ∀ t ∈ types, ∀ s ∈ Supers.toList (H.direct t), place s < place t) (here : t ∈ types) : H.AcyclicFrom t := by
  intro s reach
  have there : s ∈ types := by
    induction reach with
    | refl => exact here
    | tail _ step ih => exact keeps _ ih _ step
  exact not_transGen_self_of_rank (fun t s ht => keeps t ht s) (fun t s ht => lower t ht s) there

theorem AcyclicFrom.exists_rank (acyclic : H.AcyclicFrom t) : ∃ rank : TypeHead → Nat, (∀ h, rank h < H.rows.length + 2) ∧
      ∀ h g, ReflTransGen H.Super t (.named h) → H.Descends h g → rank g < rank h := by
  have source (h g : TypeHead) (descends : H.Descends h g) : h.key ∈ H.inheritors := descends.mem_inheritors
  have same (h h' g g' : TypeHead) (key : h.key = h'.key) (descends : H.Descends h g) (_ : H.Descends h' g') :
      H.Descends h' g := descends.of_key key
  have keeps (h g : TypeHead) (here : ReflTransGen H.Super t (.named h)) (descends : H.Descends h g) :
      ReflTransGen H.Super t (.named g) := here.trans descends.to_reflTransGen
  have straight (h : TypeHead) (here : ReflTransGen H.Super t (.named h)) : ¬ TransGen H.Descends h h :=
    fun cycle => acyclic _ here (TransGen.lift' Ty.named (fun _ _ => id) h h cycle)
  obtain ⟨rank, bounded, lower⟩ := Polyglot.exists_rank source same keeps straight
  refine ⟨rank, fun h => ?_, lower⟩
  have bound := bounded h
  simp only [inheritors, keys, length_cons, length_map] at bound
  omega

/-! ## What is reached is listed -/

/-- The second type is reached from the first in a number of steps to a direct supertype. -/
inductive Above (H : Hierarchy) : Nat → Ty → Ty → Prop where
  | direct {t s : Ty} (step : H.Super t s) : H.Above 1 t s
  | next {n : Nat} {t u s : Ty} (step : H.Super t u) (rest : H.Above n u s) : H.Above (n + 1) t s

theorem exists_above_of_transGen (reach : TransGen H.Super t s) : ∃ n, H.Above n t s := by
  induction reach using TransGen.head_induction_on with
  | single step => exact ⟨1, .direct step⟩
  | head step _ ih => exact ih.imp' (· + 1) fun _ rest => .next step rest

/-- A walk over all that is above a type, with the number of steps to each of them. -/
inductive Walk (H : Hierarchy) : Ty → List (Nat × Ty) → Prop where
  | through {t : Ty} (above : Ty → List (Nat × Ty)) (walks : ∀ u, H.Super t u → H.Walk u (above u)) :
      H.Walk t ((Supers.toList (H.direct t)).map (1, ·) ++
        (Supers.toList (H.direct t)).flatMap fun u => (above u).map fun p => (p.1 + 1, p.2))

theorem Walk.mem_iff {steps : List (Nat × Ty)} (walk : H.Walk t steps) : (n, s) ∈ steps ↔ H.Above n t s := by
  induction walk generalizing n with
  | @through t above walks ih =>
    simp only [mem_append, mem_map, mem_flatMap, Prod.mk.injEq, Prod.exists]
    constructor
    · rintro (⟨u, step, rfl, rfl⟩ | ⟨u, step, k, v, mem, rfl, rfl⟩)
      · exact .direct step
      · exact .next step ((ih u step).mp mem)
    · rintro (step | ⟨step, rest⟩)
      · exact .inl ⟨s, step, rfl, rfl⟩
      · exact .inr ⟨_, step, _, s, (ih _ step).mpr rest, rfl, rfl⟩

/-- The types are listed above a type by a walk. -/
def Walked (H : Hierarchy) (t : Ty) (types : List Ty) : Prop := ∃ steps, H.Walk t steps ∧ steps.map Prod.snd = types

theorem Walked.through (walks : ∀ u, H.Super t u → H.Walked u (above u)) :
    H.Walked t (Supers.toList (H.direct t) ++ (Supers.toList (H.direct t)).flatMap above) := by
  choose! steps walk same using walks
  refine ⟨_, .through steps walk, ?_⟩
  have each (u : Ty) (step : u ∈ Supers.toList (H.direct t)) :
      ((steps u).map fun p => (p.1 + 1, p.2)).map Prod.snd = above u := by
    rw [← same u step, List.map_map]
    rfl
  rw [map_append, map_flatMap, flatMap_congr each]
  simp

/-- The walk comes to its end when ranks fall along each path and enough definitions may be passed. -/
theorem walked_of_rank {n : Nat} {t : Ty} {rank : TypeHead → Nat}
    (lower : ∀ h g, ReflTransGen H.Super t (.named h) → H.Descends h g → rank g < rank h)
    (enough : ∀ h, ReflTransGen H.Super t (.named h) → rank h < n) : H.Walked t (H.ancestorsWithin n t) := by
  have lower' (u : Ty) (step : H.Super t u) (h g : TypeHead) (reach : ReflTransGen H.Super u (.named h)) :=
    lower h g (.head step reach)
  cases t with
  | named h =>
    -- Only a step from a definition costs one of the definitions that may be passed, and it lowers all ranks ahead.
    obtain ⟨m, rfl⟩ : ∃ m, n = m + 1 := ⟨n - 1, by have := enough h .refl; omega⟩
    rw [ancestorsWithin_named]
    refine .through fun u step => walked_of_rank (lower' u step) fun g reach => ?_
    have less := lower h g .refl (.head' step reach)
    have bound := enough h .refl
    omega
  | closed h args base interfaces =>
    rw [ancestorsWithin_eq (by rintro _ ⟨⟩)]
    refine .through fun u step => ?_
    have smaller := sizeOf_lt_of_carried step
    exact walked_of_rank (lower' u step) fun g reach => enough g (.head step reach)
  | _ =>
    rw [ancestorsWithin_eq (by rintro _ ⟨⟩)]
    refine .through fun u step => ?_
    rw [eq_object_of_super rfl step]
    exact ⟨_, .through (fun _ => []) (fun _ step => by cases step), rfl⟩
termination_by (n, sizeOf t)

theorem AcyclicFrom.walked (acyclic : H.AcyclicFrom t) : H.Walked t (H.ancestors t) := by
  obtain ⟨rank, bounded, lower⟩ := acyclic.exists_rank
  exact walked_of_rank lower fun h _ => (bounded h).trans (Nat.lt_succ_self _)

/-- **The ancestors of a type are what it reaches** by one or more steps to a direct supertype. -/
theorem mem_ancestors_iff (acyclic : H.AcyclicFrom t) : s ∈ H.ancestors t ↔ TransGen H.Super t s := by
  refine ⟨transGen_of_mem_ancestorsWithin, fun reach => ?_⟩
  obtain ⟨n, above⟩ := exists_above_of_transGen reach
  obtain ⟨steps, walk, same⟩ := acyclic.walked
  exact same ▸ mem_map_of_mem (walk.mem_iff.mpr above)

/-! ## Supertypes -/

theorem exists_mem_distinct {seen : List String} {ts : List Ty} {k : String} :
    (∃ t ∈ distinct seen ts, t.key = k) ↔ k ∉ seen ∧ ∃ t ∈ ts, t.key = k := by
  induction ts generalizing seen with
  | nil => simp [distinct]
  | cons t ts ih =>
    rw [distinct]
    split
    · next before =>
      have before : t.key ∈ seen := by simpa using before
      rw [ih, exists_mem_cons_iff]
      refine and_congr_right fun fresh => (or_iff_right ?_).symm
      rintro rfl
      exact fresh before
    · next new =>
      have new : t.key ∉ seen := by simpa using new
      rw [exists_mem_cons_iff, ih]
      by_cases here : t.key = k
      · subst here
        simp [new]
      · simp [here, Ne.symm here]

/-- **The supertypes of a type have the keys of its ancestors.** -/
theorem exists_mem_supertypes_iff (acyclic : H.AcyclicFrom t) (k : String) :
    (∃ s ∈ H.supertypes t, s.key = k) ↔ ∃ s, TransGen H.Super t s ∧ s.key = k := by
  rw [supertypes, exists_mem_distinct]
  simp [mem_ancestors_iff acyclic]

end Hierarchy

end Polyglot
