import Mathlib.Data.Finset.Card
import Mathlib.Data.List.Forall2
import Mathlib.Logic.Relation

/-!
# Computations that succeed, rows, and relations without cycles

What a computation that may fail did when it succeeded, taken apart; the rows of association lists; and how far one
can go along a relation that never comes back.
-/

namespace Polyglot

open List

variable {ε α β : Type}

variable {γ : Type} {R : α → β → Prop} {as : List α} {bs : List β} {x : Except ε α} {b : β}

variable {edge : α → α → Prop} {f : α → Except ε β} {reached P : α → Prop}

theorem bind_eq_ok : x >>= f = .ok b ↔ ∃ a, x = .ok a ∧ f a = .ok b := by
  cases x with
  | error e => simp [Bind.bind, Except.bind]
  | ok a => simp [Bind.bind, Except.bind]

theorem mapM_eq_ok : as.mapM f = .ok bs ↔ Forall₂ (fun a b => f a = .ok b) as bs := by
  induction as generalizing bs with
  | nil =>
    rw [forall₂_nil_left_iff]
    exact ⟨fun h => by cases h; rfl, fun h => by rw [h]; rfl⟩
  | cons a as ih =>
    rw [mapM_cons, forall₂_cons_left_iff]
    constructor
    · intro h
      obtain ⟨b, hb, h⟩ := bind_eq_ok.mp h
      obtain ⟨rest, hrest, h⟩ := bind_eq_ok.mp h
      cases h
      exact ⟨b, rest, hb, ih.mp hrest, rfl⟩
    · rintro ⟨b, rest, hb, hrest, rfl⟩
      exact bind_eq_ok.mpr ⟨b, hb, bind_eq_ok.mpr ⟨rest, ih.mpr hrest, rfl⟩⟩

/-- What passes a check was computed. -/
theorem exists_ok_of_any {p : α → Bool} (h : x.toOption.any p = true) : ∃ a, x = .ok a ∧ p a = true := by
  cases x with
  | error e => cases h
  | ok a => exact ⟨a, rfl, h⟩

theorem exists_ok_of_decide [∀ a, Decidable (P a)] (h : x.toOption.any (fun a => decide (P a)) = true) :
    ∃ a, x = .ok a ∧ P a := by
  obtain ⟨a, run, holds⟩ := exists_ok_of_any h
  exact ⟨a, run, of_decide_eq_true holds⟩

/-- What has an item that passes a check was computed. -/
theorem exists_mem_ok_of_decide {items : α → List β} {P : α → β → Prop} [∀ a b, Decidable (P a b)]
    (h : x.toOption.any (fun a => decide (∃ b ∈ items a, P a b)) = true) : ∃ a b, x = .ok a ∧ b ∈ items a ∧ P a b := by
  obtain ⟨a, run, b, mem, holds⟩ := exists_ok_of_decide h
  exact ⟨a, b, run, mem, holds⟩

/-- What holds of the items of a list is decided item by item, also where the type is finite. -/
theorem forall_mem_of_all [DecidablePred P] (h : as.all (fun a => decide (P a)) = true) : ∀ a ∈ as, P a := by
  simpa using h

/-- Something holds of every place of a list when it holds of the first one and of those behind it. -/
theorem forall_places_cons {a : α} {l : List α} {P : List α → α → List α → Prop} :
    (∀ before b after, a :: l = before ++ b :: after → P before b after) ↔
      P [] a l ∧ ∀ before b after, l = before ++ b :: after → P (a :: before) b after := by
  constructor
  · intro all
    exact ⟨all [] a l rfl, fun before b after split => all (a :: before) b after (by rw [split, cons_append])⟩
  · rintro ⟨first, later⟩ before b after split
    cases before with
    | nil =>
      cases split
      exact first
    | cons c before =>
      obtain ⟨rfl, behind⟩ := cons.inj split
      exact later before b after behind

/-! ## Computations side by side -/

section Agree

variable {γ δ : Type} {E : ε → ε → Prop}

/-- Two computations agree: both fail, with related faults, or both succeed, with related results. -/
inductive Agree (E : ε → ε → Prop) (R : α → β → Prop) : Except ε α → Except ε β → Prop
  | error {e e' : ε} (faults : E e e') : Agree E R (.error e) (.error e')
  | ok {a : α} {b : β} (results : R a b) : Agree E R (.ok a) (.ok b)

namespace Agree

variable {R : α → β → Prop} {S : γ → δ → Prop}

theorem bind {y : Except ε β} {f : α → Except ε γ} {g : β → Except ε δ} (first : Agree E R x y)
    (next : ∀ a b, R a b → Agree E S (f a) (g b)) : Agree E S (x >>= f) (y >>= g) := by
  cases first with
  | error faults => exact .error faults
  | ok results => exact next _ _ results

/-- What is done twice agrees with itself. -/
theorem same {R : α → α → Prop} (faults : ∀ e, E e e) (results : ∀ a, x = .ok a → R a a) : Agree E R x x := by
  cases x with
  | error e => exact .error (faults e)
  | ok a => exact .ok (results a rfl)

end Agree

end Agree

/-- What two related lists have on the right comes from something on the left. -/
theorem exists_mem_of_forall₂ (h : Forall₂ R as bs) (hb : b ∈ bs) : ∃ a ∈ as, R a b := by
  induction h with
  | nil => cases hb
  | cons here _ ih =>
    rcases mem_cons.mp hb with rfl | hb
    · exact ⟨_, mem_cons_self, here⟩
    · obtain ⟨a, ha, rel⟩ := ih hb
      exact ⟨a, mem_cons_of_mem _ ha, rel⟩

theorem rel_getElem? (h : Forall₂ R as bs) (k : Nat) : Option.Rel R as[k]? bs[k]? := by
  induction h generalizing k with
  | nil => exact .none
  | cons here _ ih =>
    cases k with
    | zero => exact .some here
    | succ k => exact ih k

theorem getElem?_of_forall₂ (h : Forall₂ R as bs) {k : Nat} (there : bs[k]? = some b) : ∃ a, as[k]? = some a ∧ R a b := by
  have rel := rel_getElem? h k
  rw [there] at rel
  generalize as[k]? = x at rel
  cases rel with
  | some here => exact ⟨_, rfl, here⟩

theorem forall₂_set_right (h : Forall₂ R as bs) {k : Nat} {b' : β} (there : bs[k]? = some b)
    (step : ∀ a, R a b → R a b') : Forall₂ R as (bs.set k b') := by
  induction h generalizing k with
  | nil => exact .nil
  | cons here rest ih =>
    cases k with
    | zero =>
      cases there
      exact .cons (step _ here) rest
    | succ k => exact .cons here (ih there)

/-- Two lists that come from one list have the same values, when they have one by one. -/
theorem map_eq_of_forall₂ {S : α → β → Prop} {f : β → γ} {cs : List β} (hr : Forall₂ R as bs)
    (hs : Forall₂ S as cs) (same : ∀ a ∈ as, ∀ b c, R a b → S a c → f b = f c) : bs.map f = cs.map f := by
  induction hr generalizing cs with
  | nil =>
    rw [forall₂_nil_left_iff.mp hs]
  | @cons a b _ _ here _ ih =>
    obtain ⟨c, cs', there, rest, rfl⟩ := forall₂_cons_left_iff.mp hs
    rw [map_cons, map_cons, same a mem_cons_self b c here there, ih rest fun a ha => same a (mem_cons_of_mem _ ha)]

theorem map_eq_map_of_forall₂ {f : α → γ} {g : β → γ} (h : Forall₂ (fun a b => f a = g b) as bs) : as.map f = bs.map g := by
  induction h with
  | nil => rfl
  | cons here _ ih => rw [map_cons, map_cons, here, ih]

theorem forall₂_trans {S : β → γ → Prop} {T : α → γ → Prop} {cs : List γ} (step : ∀ a b c, R a b → S b c → T a c)
    (first : Forall₂ R as bs) (next : Forall₂ S bs cs) : Forall₂ T as cs := by
  induction first generalizing cs with
  | nil =>
    cases next
    exact .nil
  | cons here _ ih =>
    cases next with
    | cons there rest => exact .cons (step _ _ _ here there) (ih rest)

theorem mem_of_lookup {δ : Type} [BEq γ] [LawfulBEq γ] {rows : List (γ × δ)} {k : γ} {v : δ}
    (h : rows.lookup k = some v) : (k, v) ∈ rows := by
  obtain ⟨before, after, rfl, -⟩ := lookup_eq_some_iff.mp h
  exact mem_append_right before mem_cons_self

theorem lookup_cons_ite (k : String) (v : β) (rows : List (String × β)) (k' : String) :
    lookup k' ((k, v) :: rows) = if k' = k then some v else rows.lookup k' := by
  rw [lookup_cons]
  by_cases same : k' = k
  · simp [same]
  · simp [same, beq_false_of_ne same]

/-- A row is found under its key when no other row has it. -/
theorem lookup_of_mem {rows : List (String × β)} {k : String} {v : β} (distinct : (rows.map Prod.fst).Nodup)
    (mem : (k, v) ∈ rows) : rows.lookup k = some v := by
  induction rows with
  | nil => cases mem
  | cons row rows ih =>
    obtain ⟨fresh, distinct⟩ := nodup_cons.mp distinct
    rw [lookup_cons_ite]
    rcases mem_cons.mp mem with rfl | mem
    · exact if_pos rfl
    · have key : k ∈ rows.map Prod.fst := mem_map.mpr ⟨_, mem, rfl⟩
      have differ : k ≠ row.1 := fun same => fresh (same ▸ key)
      rw [if_neg differ, ih distinct mem]

/-- A text that goes on behind some of its first characters. -/
theorem span_append {p : Char → Bool} {cs rest : List Char} (inside : ∀ c ∈ cs, p c) (ends : ∀ c ∈ rest.head?, p c = false) :
    (cs ++ rest).takeWhile p = cs ∧ (cs ++ rest).dropWhile p = rest := by
  rw [takeWhile_append_of_pos inside, dropWhile_append_of_pos inside]
  cases rest with
  | nil => simp
  | cons c rest => simp [ends c rfl]

/-- Along a relation that lowers ranks nothing comes back. -/
theorem not_transGen_self_of_rank {rank : α → Nat} (keeps : ∀ a b, reached a → edge a b → reached b)
    (lower : ∀ a b, reached a → edge a b → rank b < rank a) {a : α} (here : reached a) : ¬ Relation.TransGen edge a a := by
  have below {b : α} (chain : Relation.TransGen edge a b) : reached b ∧ rank b < rank a := by
    induction chain with
    | single step => exact ⟨keeps _ _ here step, lower _ _ here step⟩
    | tail _ step ih => exact ⟨keeps _ _ ih.1 step, (lower _ _ ih.1 step).trans ih.2⟩
  exact fun cycle => (below cycle).2.false

/-- **Finite relations without cycles have ranks.** Steps start at finitely many keys, and from things with one key the
same steps start; then no path passes more things than there are keys. -/
theorem exists_rank {κ : Type} {key : α → κ} {nodes : List κ} (source : ∀ a b, edge a b → key a ∈ nodes)
    (same : ∀ a a' b b', key a = key a' → edge a b → edge a' b' → edge a' b) (keeps : ∀ a b, reached a → edge a b → reached b)
    (acyclic : ∀ a, reached a → ¬ Relation.TransGen edge a a) :
    ∃ rank : α → Nat, (∀ a, rank a ≤ nodes.length) ∧ ∀ a b, reached a → edge a b → rank b < rank a := by
  classical
  -- The rank of a thing is the number of keys at which a step can be taken from there on.
  let below (a : α) : Finset κ :=
    nodes.toFinset.filter fun k => ∃ b c, Relation.ReflTransGen edge a b ∧ edge b c ∧ key b = k
  refine ⟨fun a => (below a).card, fun a => ?_, fun a b ha step => ?_⟩
  · exact (Finset.card_filter_le _ _).trans (toFinset_card_le nodes)
  · refine Finset.card_lt_card ((Finset.ssubset_iff_of_subset ?_).mpr ⟨key a, ?_, ?_⟩)
    · intro k hk
      obtain ⟨mem, c, d, reach, next, hc⟩ := Finset.mem_filter.mp hk
      exact Finset.mem_filter.mpr ⟨mem, c, d, .head step reach, next, hc⟩
    · exact Finset.mem_filter.mpr ⟨mem_toFinset.mpr (source a b step), a, b, .refl, step, rfl⟩
    · -- Coming back to the key of `a` is a cycle: from there the same step can be taken again.
      intro hk
      obtain ⟨-, c, d, reach, next, hc⟩ := Finset.mem_filter.mp hk
      have there : reached c := by
        clear hk next hc
        induction reach with
        | refl => exact keeps a b ha step
        | tail _ next ih => exact keeps _ _ ih next
      exact acyclic c there (.head' (same a c b d hc.symm step next) reach)

/-! ## Filters -/

/-- What is found in one list of many that have nothing in common is found there only. -/
theorem filter_flatMap_of_pairwise {f : α → List β} {p : β → Bool} {l : List α}
    (distinct : l.Pairwise fun a b => ∀ x ∈ f a, ∀ y ∈ f b, ¬ (p x = true ∧ p y = true)) {a : α} (ha : a ∈ l)
    (found : ∃ x ∈ f a, p x = true) : (l.flatMap f).filter p = (f a).filter p := by
  obtain ⟨x, hx, isIt⟩ := found
  induction l with
  | nil => cases ha
  | cons b rest ih =>
    obtain ⟨here, later⟩ := pairwise_cons.mp distinct
    rw [flatMap_cons, filter_append]
    rcases mem_cons.mp ha with rfl | ha
    · have others : (rest.flatMap f).filter p = [] := by
        refine filter_eq_nil_iff.mpr fun y hy isIt' => ?_
        obtain ⟨b, hb, hy⟩ := mem_flatMap.mp hy
        exact here b hb x hx y hy ⟨isIt, isIt'⟩
      rw [others, append_nil]
    · have first : (f b).filter p = [] :=
        filter_eq_nil_iff.mpr fun y hy isIt' => here a ha y hy x hx ⟨isIt', isIt⟩
      rw [first, nil_append, ih later ha]

/-- A key that is there once is found once. -/
theorem filter_key_eq_singleton [DecidableEq α] {l : List (α × β)} (distinct : (l.map Prod.fst).Nodup) {x : α × β}
    (hx : x ∈ l) : l.filter (fun y => y.1 = x.1) = [x] := by
  induction l with
  | nil => cases hx
  | cons y rest ih =>
    obtain ⟨apart, later⟩ := nodup_cons.mp distinct
    rcases mem_cons.mp hx with rfl | hx
    · have others : rest.filter (fun y => y.1 = x.1) = [] := by
        refine filter_eq_nil_iff.mpr fun y hy same => apart ?_
        exact of_decide_eq_true same ▸ mem_map_of_mem hy
      rw [filter_cons_of_pos (by simp), others]
    · have other : y.1 ≠ x.1 := fun same => apart (same ▸ mem_map_of_mem hx)
      rw [filter_cons_of_neg (by simpa using other), ih later hx]

/-! ## Loops -/

/-- **A loop that threads a state**: each input takes a step, which gives an output. -/
inductive Threaded {σ α β : Type} (step : σ → α → β → σ → Prop) : σ → List α → List β → σ → Prop
  | nil (s : σ) : Threaded step s [] [] s
  | cons {s s₁ s' : σ} {a : α} {b : β} {as : List α} {bs : List β} (here : step s a b s₁)
      (rest : Threaded step s₁ as bs s') : Threaded step s (a :: as) (b :: bs) s'

namespace Threaded

variable {σ α β : Type} {step : σ → α → β → σ → Prop} {s s' : σ} {as : List α} {bs : List β}

/-- What every step keeps, the loop keeps. -/
theorem rel {R : σ → σ → Prop} (refl : ∀ s, R s s) (trans : ∀ {s s₁ s₂}, R s s₁ → R s₁ s₂ → R s s₂)
    (each : ∀ {s a b s'}, step s a b s' → R s s') (h : Threaded step s as bs s') : R s s' := by
  induction h with
  | nil s => exact refl s
  | cons here _ ih => exact trans (each here) ih

theorem forall₂ {R : α → β → Prop} (each : ∀ {s a b s'}, step s a b s' → R a b) (h : Threaded step s as bs s') :
    Forall₂ R as bs := by
  induction h with
  | nil => exact .nil
  | cons here _ ih => exact .cons (each here) ih

end Threaded

end Polyglot
