import Mathlib.Data.List.ProdSigma
import Mathlib.Data.List.Sort
import Polyglot.Report

/-!
# Reports are canonical

A report lists one unit for each target and each type, by the name of the target and then by the key of the type. It depends
neither on the order of the document or of the targets nor on the order in which units are emitted. A unit that fails keeps no
output, and its last diagnostic tells why.
-/

namespace Polyglot

open List

/-! ## Things in order of a text -/

section Order

variable {α : Type} {key : α → String} {l : List α}

theorem Text.not_before_iff {a b : String} : (!Text.before b a) = true ↔ a ≤ b := by
  rw [Text.before, Bool.not_eq_true', decide_eq_false_iff_not]
  exact String.not_lt

theorem mergeSort_pairwise (l : List α) :
    (l.mergeSort fun a b => !Text.before (key b) (key a)).Pairwise fun a b => key a ≤ key b := by
  refine (pairwise_mergeSort (fun a b c ab bc => ?_) (fun a b => ?_) l).imp Text.not_before_iff.mp
  · exact Text.not_before_iff.mpr (String.le_trans (Text.not_before_iff.mp ab) (Text.not_before_iff.mp bc))
  · rw [Bool.or_eq_true, Text.not_before_iff, Text.not_before_iff]
    exact String.le_total (key a) (key b)

/-- Things with texts of their own are in strict order. -/
theorem mergeSort_pairwise_lt (distinct : (l.map key).Nodup) :
    (l.mergeSort fun a b => !Text.before (key b) (key a)).Pairwise fun a b => key a < key b := by
  have apart := ((mergeSort_perm l fun a b => !Text.before (key b) (key a)).map key).nodup_iff.mpr distinct
  refine (mergeSort_pairwise l).imp₂ (fun a b le ne => ?_) (pairwise_map.mp apart)
  exact String.not_le.mp fun ge => ne (String.le_antisymm le ge)

/-- **There is one way to put things in order** when their texts tell them apart. -/
theorem mergeSort_eq_of_perm {l' : List α} (apart : ∀ a ∈ l, ∀ b ∈ l, key a = key b → a = b) (perm : l'.Perm l)
    (sorted : l'.Pairwise fun a b => key a ≤ key b) : (l.mergeSort fun a b => !Text.before (key b) (key a)) = l' := by
  have same := mergeSort_perm l fun a b => !Text.before (key b) (key a)
  refine Perm.eq_of_pairwise (fun a b ha hb ab ba => ?_) (mergeSort_pairwise l) sorted (same.trans perm.symm)
  exact apart a (same.subset ha) b (perm.subset hb) (String.le_antisymm ab ba)

end Order

namespace Target

theorem name_injective {a b : Target} (same : a.name = b.name) : a = b := by
  cases a <;> cases b <;> first | rfl | exact absurd same (by decide)

theorem sorted_perm (ts : List Target) : (sorted ts).Perm ts := mergeSort_perm ts _

theorem sorted_pairwise (ts : List Target) : (sorted ts).Pairwise fun a b => a.name ≤ b.name := mergeSort_pairwise ts

theorem sorted_eq_of_perm {ts ts' : List Target} (perm : ts'.Perm ts)
    (ordered : ts'.Pairwise fun a b => a.name ≤ b.name) : sorted ts = ts' :=
  mergeSort_eq_of_perm (fun _ _ _ _ => name_injective) perm ordered

end Target

namespace Compilation

variable {c : Compilation} {ds : List TypeDecl}

theorem sortedTypes_perm : c.sortedTypes.Perm c.types := mergeSort_perm c.types _

theorem sortedTypes_pairwise : c.sortedTypes.Pairwise fun a b => a.type.key ≤ b.type.key := mergeSort_pairwise c.types

theorem sortedTypes_eq_of_perm (distinct : (c.types.map (·.type.key)).Nodup) (perm : ds.Perm c.types)
    (ordered : ds.Pairwise fun a b => a.type.key ≤ b.type.key) : c.sortedTypes = ds :=
  mergeSort_eq_of_perm (fun _ ha _ hb => inj_on_of_nodup_map distinct ha hb) perm ordered

theorem sortedTypes_pairwise_lt (distinct : (c.types.map (·.type.key)).Nodup) :
    c.sortedTypes.Pairwise fun a b => a.type.key < b.type.key := mergeSort_pairwise_lt distinct

end Compilation

/-! ## Units -/

section Units

variable {options : Options} {c : Compilation} {t : Target} {d : TypeDecl}

@[simp] theorem emitUnit_target : (emitUnit options c t d).target = t := by
  unfold emitUnit
  split
  · rfl
  · dsimp only
    split <;> rfl

@[simp] theorem emitUnit_type : (emitUnit options c t d).type = d.type.key := by
  unfold emitUnit
  split
  · rfl
  · dsimp only
    split <;> rfl

/-- **A diagnostic tells what a fault is**: its text, and a class that it is of, if there is one. -/
structure Diagnostic.Classifies (x : Diagnostic) (f : Fault) : Prop where
  message : x.message = f.text
  ofClass : ∀ k, x.kind = .ofClass k → f.isOf k = true
  internal : x.kind = .internal → ∀ k, f.isOf k = false

theorem Diagnostic.classifies_ofFault (f : Fault) (place : Position) : (Diagnostic.ofFault f place).Classifies f := by
  refine ⟨rfl, fun k kind => ?_, fun kind k => ?_⟩
  · simp only [ofFault] at kind
    split_ifs at kind <;> cases kind <;> assumption
  · simp only [ofFault] at kind
    split_ifs at kind with unsupported template binding unresolved
    cases k <;> simp_all

/-- **What a unit tells about itself**: it failed when it has a failure, and then it kept no output and its last
diagnostic tells the failure; it fell back when it has none, and a diagnostic. -/
structure Emission.Consistent (u : Emission) : Prop where
  failed_iff : u.status = .failed ↔ u.failure ≠ none
  whole : ∀ f, u.failure = some f → u.outputs = [] ∧ ∃ x, u.diagnostics.getLast? = some x ∧ x.Classifies f
  fallback_iff : u.status = .fallback ↔ u.failure = none ∧ u.diagnostics ≠ []

theorem emitUnit_consistent (live : options.isCancelled = false) : (emitUnit options c t d).Consistent := by
  unfold emitUnit
  rw [if_neg (by simp [live])]
  dsimp only
  split
  · next outputs diagnostics _ =>
    cases diagnostics with
    | nil => exact ⟨by simp, by simp, by simp⟩
    | cons x xs => exact ⟨by simp, by simp, by simp⟩
  · next remarks f _ =>
    refine ⟨by simp, fun g same => ⟨rfl, _, getLast?_concat, ?_⟩, by simp⟩
    cases same
    exact Diagnostic.classifies_ofFault _ _

/-- To look for faults only is to keep no output. -/
theorem emitUnit_check : emitUnit { options with isCheck := true } c t d =
    { emitUnit { options with isCheck := false } c t d with outputs := [] } := by
  unfold emitUnit
  dsimp only
  split
  · rfl
  · split <;> rfl

end Units

/-! ## The whole report -/

namespace Report

variable {options : Options} {c : Compilation} {units : List Emission}

/-- **The order of the input does not show.** -/
theorem run_perm (distinct : (c.types.map (·.type.key)).Nodup) {ts : List Target} {ds : List TypeDecl}
    (targets : ts.Perm options.targets) (types : ds.Perm c.types) :
    run { options with targets := ts } { c with types := ds } = run options c := by
  have sortedTargets : Target.sorted ts = Target.sorted options.targets :=
    Target.sorted_eq_of_perm ((Target.sorted_perm _).trans targets.symm) (Target.sorted_pairwise _)
  have sortedTypes : Compilation.sortedTypes { c with types := ds } = c.sortedTypes :=
    Compilation.sortedTypes_eq_of_perm ((types.map _).nodup_iff.mpr distinct)
      (Compilation.sortedTypes_perm.trans types.symm) Compilation.sortedTypes_pairwise
  simp only [run, sortedTargets, sortedTypes]
  rfl

/-- **Types that are left out take their units with them**, and no others. -/
theorem run_filter_types (distinct : (c.types.map (·.type.key)).Nodup) (keep : String → Bool) :
    run options { c with types := c.types.filter fun d => keep d.type.key } =
      { units := (run options c).units.filter fun u => keep u.type } := by
  have apart : ((c.types.filter fun d => keep d.type.key).map (·.type.key)).Nodup :=
    distinct.sublist ((filter_sublist).map _)
  have sortedTypes : Compilation.sortedTypes { c with types := c.types.filter fun d => keep d.type.key } =
      c.sortedTypes.filter fun d => keep d.type.key :=
    Compilation.sortedTypes_eq_of_perm apart (Compilation.sortedTypes_perm.filter _)
      (Compilation.sortedTypes_pairwise.filter _)
  simp only [run, sortedTypes, filter_flatMap, filter_map, Function.comp_def, emitUnit_type]
  rfl

/-- **Targets that are left out take their units with them**, and no others. -/
theorem run_filter_targets (keep : Target → Bool) : run { options with targets := options.targets.filter keep } c =
      { units := (run options c).units.filter fun u => keep u.target } := by
  have sortedTargets : Target.sorted (options.targets.filter keep) = (Target.sorted options.targets).filter keep :=
    Target.sorted_eq_of_perm ((Target.sorted_perm _).filter _) ((Target.sorted_pairwise _).filter _)
  simp only [run, sortedTargets, filter_flatMap, filter_map, Function.comp_def, emitUnit_target]
  congr 1
  induction Target.sorted options.targets with
  | nil => rfl
  | cons t ts ih =>
    rw [flatMap_cons, filter_cons]
    cases kept : keep t with
    | true =>
      rw [if_pos rfl, flatMap_cons, ih, filter_true]
      rfl
    | false => simpa using ih

/-- **To look for faults only** keeps everything but the outputs. -/
theorem run_check : (run { options with isCheck := true } c).units =
    (run { options with isCheck := false } c).units.map fun u => { u with outputs := [] } := by
  have unit (t : Target) : emitUnit { options with isCheck := true } c t =
      (fun u => { u with outputs := [] }) ∘ emitUnit { options with isCheck := false } c t :=
    funext fun _ => emitUnit_check
  simp only [run, map_flatMap, map_map, unit]

/-! ## Units in any order of emission -/

/-- The units of a report before they are emitted. -/
def slots (options : Options) (c : Compilation) : List Emission :=
  (Target.sorted options.targets).flatMap fun t =>
    c.sortedTypes.map fun d => { target := t, type := d.type.key, status := .ok }

/-- **One unit is emitted into its slot.** The slot knows the target; the place of the slot, counted round the types,
tells the type. -/
def emitSlot (options : Options) (c : Compilation) (units : List Emission) (i : Nat) : List Emission :=
  match units[i]?, c.sortedTypes[i % c.sortedTypes.length]? with
  | some u, some d => units.set i (emitUnit options c u.target d)
  | _, _ => units

/-- The entry of a table that is written row by row. -/
theorem getElem?_flatMap_map {α β γ : Type} (f : α → β → γ) (rows : List α) (columns : List β) (i : Nat) :
    (rows.flatMap fun a => columns.map (f a))[i]? =
      rows[i / columns.length]?.bind fun a => columns[i % columns.length]?.map (f a) := by
  induction rows generalizing i with
  | nil => simp
  | cons a rows ih =>
    rw [flatMap_cons]
    by_cases first : i < columns.length
    · rw [getElem?_append_left (by simpa using first), Nat.div_eq_of_lt first, Nat.mod_eq_of_lt first]
      simp
    · have size : columns.length ≤ i := Nat.le_of_not_lt first
      rw [getElem?_append_right (by simpa using size), length_map, ih, ← Nat.mod_eq_sub_mod size]
      cases columns with
      | nil => simp
      | cons b columns =>
        rw [Nat.div_eq_sub_div (by simp) size, getElem?_cons_succ]

theorem getElem?_slots (i : Nat) : (slots options c)[i]? =
    (Target.sorted options.targets)[i / c.sortedTypes.length]?.bind fun t =>
      c.sortedTypes[i % c.sortedTypes.length]?.map fun d => { target := t, type := d.type.key, status := .ok } :=
  getElem?_flatMap_map _ _ _ i

theorem getElem?_run (i : Nat) : (run options c).units[i]? =
    (Target.sorted options.targets)[i / c.sortedTypes.length]?.bind fun t =>
      c.sortedTypes[i % c.sortedTypes.length]?.map (emitUnit options c t) :=
  getElem?_flatMap_map _ _ _ i

theorem length_slots : (run options c).units.length = (slots options c).length := by
  simp [run, slots]

/-- Each slot is as it was, or holds its unit of the report. -/
def Filling (options : Options) (c : Compilation) (units : List Emission) : Prop :=
  ∀ i : Nat, units[i]? = (slots options c)[i]? ∨ units[i]? = (run options c).units[i]?

/-- One step fills its slot with the unit of the report and leaves the others. -/
theorem getElem?_emitSlot (filling : Filling options c units) (i j : Nat) :
    (emitSlot options c units i)[j]? = if i = j then (run options c).units[j]? else units[j]? := by
  cases unit : (run options c).units[i]? with
  | none =>
    have outside : (slots options c).length ≤ i := length_slots ▸ getElem?_eq_none_iff.mp unit
    have absent : units[i]? = none := (filling i).elim (·.trans (getElem?_eq_none outside)) (·.trans unit)
    rw [show emitSlot options c units i = units by simp [emitSlot, absent]]
    by_cases same : i = j
    · rw [if_pos same, ← same, absent, unit]
    · rw [if_neg same]
  | some v =>
    rw [getElem?_run, Option.bind_eq_some_iff] at unit
    obtain ⟨t, target, unit⟩ := unit
    obtain ⟨d, type, rfl⟩ := Option.map_eq_some_iff.mp unit
    have here := filling i
    rw [getElem?_slots, getElem?_run, target, type] at here
    obtain ⟨u, present, same⟩ : ∃ u, units[i]? = some u ∧ u.target = t := by
      rcases here with here | here
      · exact ⟨_, here, rfl⟩
      · exact ⟨_, here, emitUnit_target⟩
    have inside := (List.getElem?_eq_some_iff.mp present).1
    have step : emitSlot options c units i = units.set i (emitUnit options c t d) := by
      simp [emitSlot, present, type, same]
    rw [step, getElem?_set, if_pos inside]
    by_cases same : i = j
    · rw [if_pos same, if_pos same, ← same, getElem?_run, target, type]
      rfl
    · rw [if_neg same, if_neg same]

theorem foldl_emitSlot (filling : Filling options c units) (order : List Nat) (j : Nat) :
    (order.foldl (emitSlot options c) units)[j]? = if j ∈ order then (run options c).units[j]? else units[j]? := by
  induction order generalizing units with
  | nil => simp
  | cons i order ih =>
    have next : Filling options c (emitSlot options c units i) := by
      intro j
      rw [getElem?_emitSlot filling]
      split
      · exact .inr rfl
      · exact filling j
    rw [foldl_cons, ih next, getElem?_emitSlot filling]
    by_cases here : j = i <;> by_cases later : j ∈ order <;> simp [here, eq_comm]

/-- **The order of emission does not show**: emitted one by one, in any order, the units are those of the report. -/
theorem foldl_emitSlot_slots {order : List Nat} (each : order.Perm (range (slots options c).length)) :
    order.foldl (emitSlot options c) (slots options c) = (run options c).units := by
  apply ext_getElem?
  intro j
  have start : Filling options c (slots options c) := fun _ => .inl rfl
  rw [foldl_emitSlot start]
  split
  · rfl
  · next absent =>
    have outside : (slots options c).length ≤ j := by
      simpa using mt (each.mem_iff.mpr ∘ mem_range.mpr) absent
    rw [getElem?_eq_none outside, getElem?_eq_none (length_slots ▸ outside)]

/-! ## Reports are canonical -/

/-- **A report is canonical, and its units are whole and on their own.** It has one unit for each target and type, in
order; the order of emission and of the input does not show; what is left out takes only its own units away; units
tell about themselves what holds; and to look for faults only is to keep no output. -/
theorem run_canonical (options : Options) (c : Compilation) (live : options.isCancelled = false)
    (distinct : (c.types.map (·.type.key)).Nodup) :
    (∃ (ts : List Target) (ds : List TypeDecl), ts.Perm options.targets ∧ ts.Pairwise (fun a b => a.name ≤ b.name) ∧
      ds.Perm c.types ∧ ds.Pairwise (fun a b => a.type.key < b.type.key) ∧
      (run options c).units.map (fun u => (u.target, u.type)) = ts ×ˢ ds.map (·.type.key)) ∧
    (∀ order : List Nat, order.Perm (range (slots options c).length) →
      order.foldl (emitSlot options c) (slots options c) = (run options c).units) ∧
    (∀ (ts : List Target) (ds : List TypeDecl), ts.Perm options.targets → ds.Perm c.types →
      run { options with targets := ts } { c with types := ds } = run options c) ∧
    (∀ keep : String → Bool, run options { c with types := c.types.filter fun d => keep d.type.key } =
      { units := (run options c).units.filter fun u => keep u.type }) ∧
    (∀ keep : Target → Bool, run { options with targets := options.targets.filter keep } c =
      { units := (run options c).units.filter fun u => keep u.target }) ∧
    (∀ u ∈ (run options c).units, u.Consistent) ∧
    (run { options with isCheck := true } c).units =
      (run { options with isCheck := false } c).units.map fun u => { u with outputs := [] } := by
  refine ⟨?_, fun _ => foldl_emitSlot_slots, fun _ _ => run_perm distinct, run_filter_types distinct,
    run_filter_targets, fun u mem => ?_, run_check⟩
  · refine ⟨_, _, Target.sorted_perm _, Target.sorted_pairwise _, Compilation.sortedTypes_perm,
      Compilation.sortedTypes_pairwise_lt distinct, ?_⟩
    simp [run, map_flatMap, Function.comp_def, SProd.sprod, product]
  · obtain ⟨t, -, mem⟩ := mem_flatMap.mp mem
    obtain ⟨d, -, rfl⟩ := mem_map.mp mem
    exact emitUnit_consistent live

/-- A class without members. -/
def emptyClass (name : String) : TypeDecl where
  head := ⟨.classDecl, "N", name, [], ""⟩
  symbol := default
  place := default

theorem run_canonical_emptyClass :
    (([emptyClass "B", emptyClass "A"].map (·.type.key)).Nodup) ∧
    run { targets := [.rust, .cpp] } ⟨{}, [emptyClass "B", emptyClass "A"]⟩ =
      run { targets := [.cpp, .rust] } ⟨{}, [emptyClass "A", emptyClass "B"]⟩ := by
  have distinct : ([emptyClass "B", emptyClass "A"].map (·.type.key)).Nodup := by decide
  have canonical := run_canonical { targets := [.rust, .cpp] } ⟨{}, [emptyClass "B", emptyClass "A"]⟩ rfl distinct
  exact ⟨distinct, (canonical.2.2.1 [.cpp, .rust] [emptyClass "A", emptyClass "B"] (.swap _ _ _) (.swap _ _ _)).symm⟩

end Report

end Polyglot
