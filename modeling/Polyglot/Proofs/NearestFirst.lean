import Polyglot.Prelude
import Polyglot.Proofs.InheritedMembers

/-!
# How near supertypes are listed

The walk over the supertypes of a type lists its direct supertypes at once, and then all that is above the first of them
before what is above the next. So a supertype that is reached in many steps may stand before one that is reached in
fewer. It does not where of several direct supertypes only the last one that has supertypes reaches higher than these.
-/

namespace Polyglot

open Relation

namespace Hierarchy

variable {H : Hierarchy} {s t u : Ty} {n : Nat} {steps : List (Nat × Ty)}

/-- **Nearest first**: what stands before a supertype is reached by a path that is no longer than any to it. -/
def NearestFirst (H : Hierarchy) (t : Ty) : Prop :=
  (H.supertypes t).Pairwise fun a b => ∀ n s, H.Above n t s → s.key = b.key → ∃ m ≤ n, ∃ r, H.Above m t r ∧ r.key = a.key

/-- Nothing stands above the supertypes of the first type, or the second has none. -/
def Lower (H : Hierarchy) (a b : Ty) : Prop := (∃ s, H.Super b s) → ∀ r, H.Super a r → ∀ s, ¬ H.Super r s

/-- **One tall branch at most**: each direct supertype of a type is lower than those behind it, and so above the type. -/
def Slim (H : Hierarchy) (t : Ty) : Prop :=
  ∀ u, ReflTransGen H.Super t u → (Supers.toList (H.direct u)).Pairwise H.Lower

/-! ## The walk -/

theorem slim_iff : H.Slim t ↔ (Supers.toList (H.direct t)).Pairwise H.Lower ∧ ∀ u, H.Super t u → H.Slim u := by
  refine ⟨fun slim => ⟨slim t .refl, fun u step v reach => slim v (.head step reach)⟩, ?_⟩
  rintro ⟨here, above⟩ u reach
  rcases ReflTransGen.cases_head reach with rfl | ⟨v, step, reach⟩
  · exact here
  · exact above v step u reach

theorem Above.exists_super (above : H.Above n t s) : 1 ≤ n ∧ ∃ u, H.Super t u := by
  cases above with
  | direct step => exact ⟨le_rfl, _, step⟩
  | next step _ => exact ⟨Nat.succ_pos _, _, step⟩

theorem lower_iff {a b : Ty} : H.Lower a b ↔ ∀ m r, H.Above m a r → ∀ n s, H.Above n b s → m ≤ n := by
  constructor
  · intro lower m r above n s other
    obtain ⟨positive, some⟩ := other.exists_super
    cases above with
    | direct step => exact positive
    | next step rest =>
      obtain ⟨-, v, next⟩ := rest.exists_super
      exact absurd next (lower some _ step v)
  · rintro least ⟨v, other⟩ r step s next
    have := least 2 s (.next step (.direct next)) 1 v (.direct other)
    omega

/-- **The steps never fall along the walk** exactly when the supertypes are slim. -/
theorem Walk.sorted_iff (walk : H.Walk t steps) :
    steps.Pairwise (fun p q => p.1 ≤ q.1) ↔ H.Slim t := by
  induction walk with
  | @through t above walks ih =>
    have each : (∀ u ∈ Supers.toList (H.direct t), ((above u).map fun p => (p.1 + 1, p.2)).Pairwise fun p q => p.1 ≤ q.1) ↔
        ∀ u, H.Super t u → H.Slim u :=
      forall₂_congr fun u step => by rw [← ih u step, List.pairwise_map]; simp
    have pairs : ((Supers.toList (H.direct t)).Pairwise fun u v => ∀ p ∈ (above u).map fun p => (p.1 + 1, p.2),
        ∀ q ∈ (above v).map fun p => (p.1 + 1, p.2), p.1 ≤ q.1) ↔ (Supers.toList (H.direct t)).Pairwise H.Lower := by
      refine List.Pairwise.iff_of_mem fun {u v} hu hv => ?_
      simp only [lower_iff, List.forall_mem_map, Prod.forall, (walks u hu).mem_iff, (walks v hv).mem_iff, Nat.add_le_add_iff_right]
    rw [slim_iff, ← each, ← pairs, List.pairwise_append, List.pairwise_flatMap]
    refine ⟨fun h => h.2.1.symm, fun h => ⟨List.pairwise_map.mpr (List.pairwise_of_forall (by simp)), h.symm, ?_⟩⟩
    simp only [List.forall_mem_map, List.mem_flatMap]
    rintro - - _ ⟨u, -, q⟩
    obtain ⟨p, -, rfl⟩ := List.mem_map.mp q
    exact Nat.le_add_left 1 p.1

/-- Direct supertypes stand before all others. -/
theorem Walk.direct_first (walk : H.Walk t steps) :
    steps.Pairwise fun p q => q.1 = 1 → p.1 = 1 := by
  obtain ⟨above, walks⟩ := walk
  have far {q : Nat × Ty} (mem : q ∈ (Supers.toList (H.direct t)).flatMap fun u => (above u).map fun p => (p.1 + 1, p.2)) :
      q.1 ≠ 1 := by
    obtain ⟨u, step, inner⟩ := List.mem_flatMap.mp mem
    obtain ⟨p, listed, rfl⟩ := List.mem_map.mp inner
    have := ((walks u step).mem_iff.mp listed).exists_super.1
    simpa using Nat.ne_of_gt this
  refine List.pairwise_append.mpr ⟨List.pairwise_map.mpr (List.pairwise_of_forall (by simp)), ?_, ?_⟩
  · exact List.pairwise_of_forall_mem_list fun p _ q there direct => absurd direct (far there)
  · exact fun p _ q there direct => absurd direct (far there)

/-! ## Each key once -/

/-- Where each key is kept once, the first of two compares with every place of the second. -/
theorem distinct_pairwise {R : Nat × Ty → Nat × Ty → Prop} (sorted : steps.Pairwise R)
    (seen : List String) : (distinct seen (steps.map Prod.snd)).Pairwise fun a b =>
      ∃ m, (m, a) ∈ steps ∧ ∀ p ∈ steps, p.2.key = b.key → R (m, a) p := by
  induction sorted generalizing seen with
  | nil => exact .nil
  | @cons p steps first sorted ih =>
    have kept {seen : List String} (mem : p.2.key ∈ seen) :
        (distinct seen (steps.map Prod.snd)).Pairwise fun a b =>
          ∃ m, (m, a) ∈ p :: steps ∧ ∀ q ∈ p :: steps, q.2.key = b.key → R (m, a) q := by
      refine (ih seen).imp_of_mem ?_
      rintro a b - there ⟨m, listed, before⟩
      refine ⟨m, .tail _ listed, List.forall_mem_cons.mpr ⟨fun same => ?_, before⟩⟩
      exact absurd (List.mem_map.mpr ⟨b, there, same.symm⟩) (key_not_mem_distinct mem)
    rw [List.map_cons, distinct]
    split
    · next mem => exact kept (by simpa using mem)
    · refine .cons (fun b there => ⟨p.1, .head _, List.forall_mem_cons.mpr ⟨fun same => ?_, fun q mem _ => first q mem⟩⟩)
        (kept List.mem_cons_self)
      exact absurd (List.mem_map.mpr ⟨b, there, same.symm⟩) (key_not_mem_distinct List.mem_cons_self)

theorem distinct_eq_self {seen : List String} {ts : List Ty} (once : (ts.map Ty.key).Nodup)
    (new : ∀ t ∈ ts, t.key ∉ seen) : distinct seen ts = ts := by
  induction ts generalizing seen with
  | nil => rfl
  | cons t ts ih =>
    obtain ⟨first, once⟩ := List.nodup_cons.mp once
    rw [distinct, if_neg (by simpa using new t List.mem_cons_self), ih once fun u mem => ?_]
    exact List.not_mem_cons_of_ne_of_not_mem (fun same => first (List.mem_map.mpr ⟨u, mem, same⟩)) (new u (.tail _ mem))

theorem slim_of_nearestFirst (acyclic : H.AcyclicFrom t) (once : ((H.ancestors t).map Ty.key).Nodup)
    (nearest : H.NearestFirst t) : H.Slim t := by
  obtain ⟨steps, walk, same⟩ := acyclic.walked
  rw [NearestFirst, supertypes, distinct_eq_self once (by simp), ← same, List.pairwise_map] at nearest
  rw [← same, List.map_map] at once
  refine walk.sorted_iff.mp (nearest.imp_of_mem ?_)
  rintro ⟨m, a⟩ ⟨n, b⟩ here there near
  obtain ⟨k, least, r, above, key⟩ := near n b (walk.mem_iff.mp there) rfl
  have : (k, r) = (m, a) := List.inj_on_of_nodup_map once (walk.mem_iff.mpr above) here key
  simp_all

/-- **How near supertypes are listed.** Direct supertypes always come first. The list is nearest first where the
supertypes are slim, and where no key is reached twice only there. -/
theorem supertypes_order (acyclic : H.AcyclicFrom t) :
    ((H.supertypes t).Pairwise fun a b =>
      (∃ s, H.Super t s ∧ s.key = b.key) → ∃ r, H.Super t r ∧ r.key = a.key) ∧
    (H.Slim t → H.NearestFirst t) ∧
    (((H.ancestors t).map Ty.key).Nodup → (H.NearestFirst t ↔ H.Slim t)) := by
  obtain ⟨steps, walk, same⟩ := acyclic.walked
  have nearest (slim : H.Slim t) : H.NearestFirst t := by
    rw [NearestFirst, supertypes, ← same]
    refine (distinct_pairwise (walk.sorted_iff.mpr slim) []).imp ?_
    rintro a b ⟨m, listed, before⟩ n s above key
    exact ⟨m, before (n, s) (walk.mem_iff.mpr above) key, a, walk.mem_iff.mp listed, rfl⟩
  refine ⟨?_, nearest, fun once => ⟨slim_of_nearestFirst acyclic once, nearest⟩⟩
  rw [supertypes, ← same]
  refine (distinct_pairwise walk.direct_first []).imp ?_
  rintro a b ⟨m, listed, before⟩ ⟨s, step, key⟩
  obtain rfl : m = 1 := before (1, s) (walk.mem_iff.mpr (.direct step)) key rfl
  cases walk.mem_iff.mp listed with
  | direct step => exact ⟨a, step, rfl⟩
  | next _ rest => exact absurd rest.exists_super.1 (by omega)

namespace Ladder

def named (name : String) : Ty := .named ⟨.interfaceDecl, "N", name, [], ""⟩

/-- Two branches above an interface, three steps and two steps high, in an order that is left open. -/
def hierarchy (branches : List Ty) : Hierarchy where
  rows := [("N.Top", ⟨none, branches⟩), ("N.A", ⟨none, [named "B"]⟩), ("N.B", ⟨none, [named "C"]⟩),
    ("N.I", ⟨none, [named "J"]⟩)]

def tallFirst : Hierarchy := hierarchy [named "A", named "I"]

def tallLast : Hierarchy := hierarchy [named "I", named "A"]

def types : List Ty := ["C", "B", "A", "J", "I", "Top"].map named

variable {branches : List Ty}

@[simp] theorem supers_top : Supers.toList ((hierarchy branches).direct (named "Top")) = branches := rfl

@[simp] theorem supers_a : Supers.toList ((hierarchy branches).direct (named "A")) = [named "B"] := rfl

@[simp] theorem supers_b : Supers.toList ((hierarchy branches).direct (named "B")) = [named "C"] := rfl

@[simp] theorem supers_c : Supers.toList ((hierarchy branches).direct (named "C")) = [] := rfl

@[simp] theorem supers_i : Supers.toList ((hierarchy branches).direct (named "I")) = [named "J"] := rfl

@[simp] theorem supers_j : Supers.toList ((hierarchy branches).direct (named "J")) = [] := rfl

theorem mem_types (two : branches = [named "A", named "I"] ∨ branches = [named "I", named "A"]) :
    ∀ t ∈ types, ∀ s, (hierarchy branches).Super t s → s ∈ types := by
  rcases two with rfl | rfl
  all_goals simp [types, Super]

theorem acyclicFrom_top (two : branches = [named "A", named "I"] ∨ branches = [named "I", named "A"]) :
    (hierarchy branches).AcyclicFrom (named "Top") := by
  let place (t : Ty) : Nat := (types.map Ty.key).idxOf t.key
  have lower : ∀ t ∈ types, ∀ s ∈ Supers.toList ((hierarchy branches).direct t), place s < place t := by
    rcases two with rfl | rfl
    all_goals decide +kernel
  exact acyclicFrom_of_lower (mem_types two) lower (by simp [types])

theorem slim_top : tallLast.Slim (named "Top") := by
  have each : ∀ u ∈ types, (Supers.toList (tallLast.direct u)).Pairwise tallLast.Lower := by
    simp [types, tallLast, Lower, Super]
  intro u reach
  refine each u ?_
  induction reach with
  | refl => simp [types]
  | tail _ step ih => exact mem_types (.inr rfl) _ ih _ step

theorem supertypes_order_tallLast :
    tallLast.AcyclicFrom (named "Top") ∧ tallLast.Slim (named "Top") ∧ tallLast.NearestFirst (named "Top") ∧
      (tallLast.supertypes (named "Top")).map Ty.key = ["N.I", "N.A", "N.J", "N.B", "N.C"] :=
  ⟨acyclicFrom_top (.inr rfl), slim_top, (supertypes_order (acyclicFrom_top (.inr rfl))).2.1 slim_top, by decide +kernel⟩

theorem not_nearestFirst_tallFirst :
    tallFirst.AcyclicFrom (named "Top") ∧ ¬ tallFirst.NearestFirst (named "Top") ∧
      (tallFirst.supertypes (named "Top")).map Ty.key = ["N.A", "N.I", "N.B", "N.C", "N.J"] := by
  have acyclic : tallFirst.AcyclicFrom (named "Top") := acyclicFrom_top (.inl rfl)
  refine ⟨acyclic, fun nearest => ?_, by decide +kernel⟩
  have slim := slim_of_nearestFirst acyclic (by decide +kernel) nearest _ .refl
  have lower : tallFirst.Lower (named "A") (named "I") := by simpa [tallFirst] using slim
  refine lower ⟨named "J", ?_⟩ (named "B") ?_ (named "C") ?_ <;>
    simp [tallFirst, Super]

end Ladder

end Hierarchy

end Polyglot
