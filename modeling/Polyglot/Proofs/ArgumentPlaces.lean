import Polyglot.Binding
import Polyglot.Proofs.Basic

/-!
# Where the arguments of a call go

Every argument of a call goes to one parameter, or to none: by its position, where a variadic parameter takes all that would go
beyond it, or by its name (`Binding.places`). `Placed` says what the bounds are when some arguments have been placed. In the end
a bound stays as it is or is supplied (`Touched`), so the places settle the bounds of an accepted call (`touched_bind`).
-/

namespace Polyglot

open List

def Parameter.HasSubstitute (p : Parameter) : Prop :=
  p.callerInfo.isSome ∨ p.default.isSome ∨ p.isOptional = true

namespace Binding

variable {α : Type}

/-! ## Where arguments go -/

section Places

variable (ps : List Parameter) (call : List (Argument α))

def byPosition : List (Argument α) := call.takeWhile (·.name = "")

def byName : List (Argument α) := call.dropWhile (·.name = "")

/-- The position of the first variadic parameter, or behind all of them. -/
def variadicAt : Nat := ps.findIdx (·.isVariadic)

/-- Arguments with their positions, and where they go: each to the parameter at its position, but none beyond the first
variadic parameter. -/
def positionPlaces (args : List (Argument α)) (pos : Nat) : List (Nat × α) :=
  (args.zipIdx pos).map fun x => (min x.2 (variadicAt ps), x.1.value)

/-- Where named arguments go: each to the first parameter with its name. -/
def namePlaces (args : List (Argument α)) : List (Nat × α) :=
  args.map fun a => (ps.findIdx (·.name = a.name), a.value)

/-- **Where the arguments of a call go.** One that has no parameter goes behind all of them. -/
def places : List (Nat × α) := positionPlaces ps (byPosition call) 0 ++ namePlaces ps (byName call)

end Places

/-- The values that go to the parameter at a position. -/
def valuesAt (ds : List (Nat × α)) (k : Nat) : List α := (ds.filter (·.1 = k)).map (·.2)

@[simp] theorem valuesAt_append (ds ds' : List (Nat × α)) (k : Nat) :
    valuesAt (ds ++ ds') k = valuesAt ds k ++ valuesAt ds' k := by
  simp [valuesAt]

theorem valuesAt_map_self (values : List α) (i : Nat) : valuesAt (values.map (i, ·)) i = values := by
  simp [valuesAt, filter_map]

theorem valuesAt_map_ne (values : List α) {i k : Nat} (other : i ≠ k) : valuesAt (values.map (i, ·)) k = [] := by
  simp [valuesAt, other]

/-! ## Bounds under construction -/

section Set

variable {β : Type} {l : List β} {i : Nat} {b b' : β}

theorem map_set_of_eq {γ : Type} {f : β → γ} (here : l[i]? = some b) (same : f b' = f b) : (l.set i b').map f = l.map f := by
  refine ext_getElem? fun j => ?_
  by_cases hij : i = j
  · subst hij
    obtain ⟨bounded, rfl⟩ := List.getElem?_eq_some_iff.mp here
    simp [same, bounded]
  · simp [hij]

theorem forall_mem_set {P : β → Prop} (all : ∀ c ∈ l, P c) (new : P b') : ∀ c ∈ l.set i b', P c := by
  intro c mem
  rcases mem_or_eq_of_mem_set mem with mem | rfl
  · exact all c mem
  · exact new

theorem modify_eq_set_of_getElem? {f : β → β} (here : l[i]? = some b) : l.modify i f = l.set i (f b) := by
  have : Inhabited β := ⟨b⟩
  rw [modify_eq_set, here, Option.getD_some]

end Set

/-- **What a bound is made from**: its parameter, and the arguments of the call. -/
structure Made (H : Hierarchy) (env : TypeEnv) (callsReceiver : Bool) (call : List (Argument α)) (b : Bound α) : Prop where
  type : H.substitute? env b.parameter.type = some b.type
  loose : b.packs = false
  source : b.source = .argument ∨ callsReceiver = true ∧ b.source = .receiver
  passing : (∀ a ∈ call, a.passing = .byValue) → b.passing = b.parameter.passing

namespace Made

variable {H : Hierarchy} {env : TypeEnv} {callsReceiver : Bool} {call : List (Argument α)} {b : Bound α}

theorem actual (h : Made H env callsReceiver call b) : b.source.isActual = true := by
  rcases h.source with source | ⟨-, source⟩
  · rw [source]
    rfl
  · rw [source]
    rfl

theorem give (h : Made H env callsReceiver call b) {a : Argument α} (ha : a ∈ call) {isReceiver : Bool}
    (calls : isReceiver = true → callsReceiver = true) : Made H env callsReceiver call (b.give a isReceiver) where
  type := h.type
  loose := h.loose
  source := by
    rw [Bound.give]
    split
    · next isReceiver => exact .inr ⟨calls isReceiver, rfl⟩
    · exact h.source
  passing values := (if_pos (values a ha)).trans (h.passing values)

end Made

/-- **What the bounds are when some arguments have been placed.** A bound that is not variadic counts as filled when it was
given a value; the last one does too when a variadic one has absorbed arguments. -/
structure Placed (M : Bound α → Prop) (ps : List Parameter) (ds : List (Nat × α)) (absorbed : Prop) (p : Progress α) :
    Prop where
  parameters : p.bounds.map (·.parameter) = ps
  length : p.filled.length = p.bounds.length
  made : ∀ b ∈ p.bounds, M b
  args : ∀ (k : Nat) (b : Bound α), p.bounds[k]? = some b → b.args = valuesAt ds k
  filled : ∀ (k : Nat) (b : Bound α) (isFilled : Bool), p.bounds[k]? = some b → b.parameter.isVariadic = false →
    p.filled[k]? = some isFilled → (isFilled = true ↔ valuesAt ds k ≠ [] ∨ (absorbed ∧ k + 1 = ps.length))

namespace Placed

variable {M : Bound α → Prop} {ps : List Parameter} {ds : List (Nat × α)} {absorbed : Prop} {p : Progress α} {k : Nat}

theorem bounds_length (h : Placed M ps ds absorbed p) : p.bounds.length = ps.length := by
  rw [← h.parameters, length_map]

theorem parameter_at (h : Placed M ps ds absorbed p) {b : Bound α} (here : p.bounds[k]? = some b) :
    ps[k]? = some b.parameter := by
  rw [← h.parameters, getElem?_map, here]
  rfl

variable {i : Nat} {values : List α}

/-- What becomes of the bounds when one of them is given values: the others stay, and it has the values behind its own. -/
theorem set_args {b b' : Bound α} (h : Placed M ps ds absorbed p) (here : p.bounds[i]? = some b)
    (args : b'.args = b.args ++ values) {c : Bound α} (there : (p.bounds.set i b')[k]? = some c) :
    c.args = valuesAt (ds ++ values.map (i, ·)) k := by
  obtain ⟨bounded, -⟩ := List.getElem?_eq_some_iff.mp here
  by_cases same : i = k
  · subst same
    rw [getElem?_set_self bounded] at there
    cases there
    rw [args, h.args i b here, valuesAt_append, valuesAt_map_self]
  · rw [getElem?_set_ne same] at there
    rw [valuesAt_append, valuesAt_map_ne values same, append_nil, h.args k c there]

/-- **A bound is given some values** and counts as filled. -/
theorem give {b b' : Bound α} (h : Placed M ps ds absorbed p) (here : p.bounds[i]? = some b)
    (parameter : b'.parameter = b.parameter) (made : M b') (args : b'.args = b.args ++ values)
    (nonempty : values ≠ []) :
    Placed M ps (ds ++ values.map (i, ·)) absorbed { bounds := p.bounds.set i b', filled := p.filled.set i true } where
  parameters := (map_set_of_eq here parameter).trans h.parameters
  length := by simp [h.length]
  made := forall_mem_set h.made made
  args _ _ there := h.set_args here args there
  filled := by
    intro k c isFilled there plain marked
    obtain ⟨bounded, -⟩ := List.getElem?_eq_some_iff.mp here
    by_cases same : i = k
    · subst same
      rw [getElem?_set_self (h.length ▸ bounded)] at marked
      cases marked
      refine iff_of_true rfl (.inl ?_)
      rw [valuesAt_append, valuesAt_map_self]
      exact append_ne_nil_of_right_ne_nil _ nonempty
    · rw [getElem?_set_ne same] at there marked
      rw [valuesAt_append, valuesAt_map_ne values same, append_nil]
      exact h.filled k c isFilled there plain marked

/-- **A variadic bound absorbs some values**, and the last one counts as filled. -/
theorem absorb {b b' : Bound α} (h : Placed M ps ds False p) (here : p.bounds[i]? = some b)
    (variadic : b.parameter.isVariadic = true) (parameter : b'.parameter = b.parameter) (made : M b')
    (args : b'.args = b.args ++ values) : Placed M ps (ds ++ values.map (i, ·)) True
      { bounds := p.bounds.set i b', filled := p.filled.set (p.bounds.length - 1) true } where
  parameters := (map_set_of_eq here parameter).trans h.parameters
  length := by simp [h.length]
  made := forall_mem_set h.made made
  args _ _ there := h.set_args here args there
  filled := by
    intro k c isFilled there plain marked
    obtain ⟨bounded, -⟩ := List.getElem?_eq_some_iff.mp here
    have other : i ≠ k := by
      rintro rfl
      rw [getElem?_set_self bounded] at there
      cases there
      rw [parameter, variadic] at plain
      cases plain
    rw [getElem?_set_ne other] at there
    rw [valuesAt_append, valuesAt_map_ne values other, ← h.bounds_length]
    have length := h.length
    by_cases last : p.bounds.length - 1 = k
    · rw [getElem?_set, if_pos last, if_pos (by omega)] at marked
      cases marked
      exact iff_of_true rfl (.inr ⟨trivial, by omega⟩)
    · rw [getElem?_set_ne last] at marked
      have before : k + 1 ≠ p.bounds.length := by omega
      rw [h.filled k c isFilled there plain marked]
      simp [before]

end Placed

variable {M : Bound α → Prop} {ps : List Parameter} {ds : List (Nat × α)} {absorbed : Prop} {p : Progress α}

/-! ## The passes -/

section Start

variable {H : Hierarchy} {env : TypeEnv}

/-- The types of the parameters can be closed. -/
def Typed (H : Hierarchy) (env : TypeEnv) (ps : List Parameter) : Prop :=
  ∀ q ∈ ps, (H.substitute? env q.type).isSome

/-- Bounds that nothing is placed at. -/
def unplaced (H : Hierarchy) (env : TypeEnv) (ps : List Parameter) : Progress α where
  bounds := ps.map fun q => { parameter := q, type := (H.substitute? env q.type).getD .void, passing := q.passing }
  filled := ps.map fun _ => false

theorem start_eq (H : Hierarchy) (env : TypeEnv) (ps : List Parameter) : (start H env ps : Except Fault (Progress α)) =
    if ps.all fun q => (H.substitute? env q.type).isSome then .ok (unplaced H env ps) else .error TypeExpr.endless := by
  have made : (ps.mapM fun q => do
      pure ({ parameter := q, type := ← H.put env q.type, passing := q.passing } : Bound α)) =
        if ps.all fun q => (H.substitute? env q.type).isSome then .ok (unplaced H env ps).bounds
        else .error TypeExpr.endless := by
    induction ps with
    | nil => rfl
    | cons q ps ih =>
      rw [mapM_cons, ih, all_cons, Hierarchy.put]
      simp only [unplaced, map_cons]
      cases H.substitute? env q.type with
      | none => rfl
      | some type => cases ps.all fun q => (H.substitute? env q.type).isSome <;> rfl
  rw [start, made]
  split <;> rfl

theorem start_of_typed (typed : Typed H env ps) : (start H env ps : Except Fault (Progress α)) = .ok (unplaced H env ps) := by
  rw [start_eq, if_pos (all_eq_true.mpr typed)]

theorem start_of_untyped (untyped : ¬ Typed H env ps) :
    (start H env ps : Except Fault (Progress α)) = .error TypeExpr.endless := by
  rw [start_eq, if_neg fun all => untyped (all_eq_true.mp all)]

theorem placed_unplaced (callsReceiver : Bool) (call : List (Argument α)) (typed : Typed H env ps) :
    Placed (Made H env callsReceiver call) ps [] False (unplaced H env ps) := by
  refine ⟨by simp [unplaced, Function.comp_def], by simp [unplaced], forall_mem_map.mpr fun q mem => ?_, ?_, ?_⟩
  · obtain ⟨type, put⟩ := Option.isSome_iff_exists.mp (typed q mem)
    refine ⟨?_, rfl, .inl rfl, fun _ => rfl⟩
    rw [put]
    rfl
  · intro k b here
    obtain ⟨q, -, rfl⟩ := mem_map.mp (mem_of_getElem? here)
    rfl
  · intro k b isFilled _ _ marked
    rw [unplaced, getElem?_map] at marked
    obtain ⟨-, -, rfl⟩ := Option.map_eq_some_iff.mp marked
    simp [valuesAt]

end Start

def FitIn (ps : List Parameter) (ds : List (Nat × α)) : Prop := ∀ d ∈ ds, d.1 < ps.length

theorem fitIn_nil : FitIn ps ([] : List (Nat × α)) := forall_mem_nil _

theorem fitIn_cons {i : Nat} (inside : i < ps.length) (value : α) : FitIn ps ((i, value) :: ds) ↔ FitIn ps ds := by
  rw [FitIn, forall_mem_cons]
  exact and_iff_right inside

section Positional

variable {pos : Nat}

theorem positionPlaces_cons (a : Argument α) (args : List (Argument α)) :
    positionPlaces ps (a :: args) pos = (min pos (variadicAt ps), a.value) :: positionPlaces ps args (pos + 1) := by
  rfl

variable (args : List (Argument α)) (missing : String → Fault)

/-- From the first variadic parameter on, all arguments go to it. -/
theorem positionPlaces_of_le (le : variadicAt ps ≤ pos) :
    positionPlaces ps args pos = (args.map (·.value)).map (variadicAt ps, ·) := by
  induction args generalizing pos with
  | nil => rfl
  | cons a args ih => rw [positionPlaces_cons, ih (by omega), Nat.min_eq_right le, map_cons, map_cons]

variable {q : Parameter}

theorem variadicAt_le {k : Nat} (here : ps[k]? = some q) (variadic : q.isVariadic = true) : variadicAt ps ≤ k := by
  obtain ⟨bounded, rfl⟩ := List.getElem?_eq_some_iff.mp here
  by_contra beyond
  have plain : ps[k].isVariadic = false := not_of_lt_findIdx (Nat.lt_of_not_le beyond)
  rw [variadic] at plain
  cases plain

theorem variadicAt_ne {k : Nat} (here : ps[k]? = some q) (plain : q.isVariadic = false) : variadicAt ps ≠ k := by
  rintro rfl
  obtain ⟨bounded, rfl⟩ := List.getElem?_eq_some_iff.mp here
  have variadic : ps[variadicAt ps].isVariadic = true := findIdx_getElem (w := bounded)
  rw [variadic] at plain
  cases plain

/-- No argument is given by position. -/
theorem placed_nothing (h : Placed M ps ds False p) (le : pos ≤ variadicAt ps) :
    Placed M ps (ds ++ positionPlaces ps [] pos) (variadicAt ps < ps.length ∧ variadicAt ps < pos + 0) p := by
  have none : (variadicAt ps < ps.length ∧ variadicAt ps < pos + 0) = False := by
    rw [eq_iff_iff, iff_false]
    omega
  rw [none]
  simpa [positionPlaces] using h

/-- Behind the arguments that are given by position are the others. -/
theorem drop_byPosition : args.drop (byPosition args).length = byName args := by
  nth_rewrite 2 [← takeWhile_append_dropWhile (p := (·.name = "")) (l := args)]
  exact drop_left

variable {H : Hierarchy} {env : TypeEnv} {callsReceiver : Bool} {call : List (Argument α)}

/-- **The first variadic parameter takes all positional arguments** from its own position on. -/
theorem placed_variadic {a : Argument α} {args : List (Argument α)} {b : Bound α}
    (h : Placed (Made H env callsReceiver call) ps ds False p) (le : pos ≤ variadicAt ps) (name : a.name = "") (here : p.bounds[pos]? = some b) (variadic : b.parameter.isVariadic = true) :
    FitIn ps (positionPlaces ps (byPosition (a :: args)) pos) ∧
      ∃ p', positional missing callsReceiver (a :: args) pos p = .ok (byName (a :: args), p') ∧
        Placed (Made H env callsReceiver call) ps (ds ++ positionPlaces ps (byPosition (a :: args)) pos)
          (variadicAt ps < ps.length ∧ variadicAt ps < pos + (byPosition (a :: args)).length) p' := by
  have parameter := h.parameter_at here
  obtain ⟨inside, -⟩ := List.getElem?_eq_some_iff.mp parameter
  have first : variadicAt ps = pos := Nat.le_antisymm (variadicAt_le parameter variadic) le
  have values : positionPlaces ps (byPosition (a :: args)) pos = ((byPosition (a :: args)).map (·.value)).map (pos, ·) := by
    rw [positionPlaces_of_le _ (Nat.le_of_eq first), first]
  have absorbs : (variadicAt ps < ps.length ∧ variadicAt ps < pos + (byPosition (a :: args)).length) = True := by
    have front : byPosition (a :: args) = a :: byPosition args := takeWhile_cons_of_pos (by simpa using name)
    rw [first, front, eq_iff_iff, iff_true]
    exact ⟨inside, Nat.lt_add_of_pos_right (Nat.succ_pos _)⟩
  rw [values, absorbs]
  constructor
  · intro d mem
    obtain ⟨value, -, rfl⟩ := mem_map.mp mem
    exact inside
  · let b' : Bound α := { b with args := b.args ++ (byPosition (a :: args)).map (·.value) }
    obtain ⟨type, loose, source, passing⟩ := h.made b (mem_of_getElem? here)
    refine ⟨_, ?_, h.absorb here variadic (show b'.parameter = b.parameter from rfl) ⟨type, loose, source, passing⟩ rfl⟩
    rw [positional, if_neg (not_not.mpr name), here, ← drop_byPosition]
    exact if_pos variadic

/-- **The arguments that are given by position** go to their parameters, when each has one; the call is refused
otherwise. -/
theorem placed_positional (args : List (Argument α)) (own : ∀ a ∈ args, a ∈ call)
    (h : Placed (Made H env callsReceiver call) ps ds False p) (le : pos ≤ variadicAt ps)
    (empty : ∀ (i : Nat) (b : Bound α), pos ≤ i → p.bounds[i]? = some b → b.args = []) :
    (FitIn ps (positionPlaces ps (byPosition args) pos) →
      ∃ p', positional missing callsReceiver args pos p = .ok (byName args, p') ∧
        Placed (Made H env callsReceiver call) ps (ds ++ positionPlaces ps (byPosition args) pos)
          (variadicAt ps < ps.length ∧ variadicAt ps < pos + (byPosition args).length) p') ∧
    (¬ FitIn ps (positionPlaces ps (byPosition args) pos) →
      ∃ which, positional missing callsReceiver args pos p = .error (missing which)) := by
  induction args generalizing pos p ds with
  | nil => exact ⟨fun _ => ⟨p, rfl, placed_nothing h le⟩, fun misfit => absurd fitIn_nil misfit⟩
  | cons a args ih =>
    by_cases name : a.name = ""
    · have front : byPosition (a :: args) = a :: byPosition args := takeWhile_cons_of_pos (by simpa using name)
      have back : byName (a :: args) = byName args := dropWhile_cons_of_pos (by simpa using name)
      cases here : p.bounds[pos]? with
      | none =>
        have beyond : ps.length ≤ pos := by
          rw [← h.bounds_length]
          exact getElem?_eq_none_iff.mp here
        rw [positional, if_neg (not_not.mpr name), here, front, positionPlaces_cons, Nat.min_eq_left le]
        refine ⟨fun fits => ?_, fun _ => ⟨_, rfl⟩⟩
        exact absurd (fits _ mem_cons_self) (Nat.not_lt.mpr beyond)
      | some b =>
        by_cases variadic : b.parameter.isVariadic = true
        · obtain ⟨fits, placed⟩ := placed_variadic missing h le name here variadic
          exact ⟨fun _ => placed, fun misfit => absurd fits misfit⟩
        · -- The argument goes to the parameter at its position, and the others to later ones.
          have parameter := h.parameter_at here
          have later : variadicAt ps ≠ pos := variadicAt_ne parameter (by simpa using variadic)
          let b' := b.give a (b.parameter.isThis && callsReceiver && pos = 0)
          have args' : b'.args = b.args ++ [a.value] := by simp [b', Bound.give, empty pos b (Nat.le_refl _) here]
          have step := h.give here (show b'.parameter = b.parameter from rfl)
            ((h.made b (mem_of_getElem? here)).give (own a mem_cons_self) (by simp_all)) args' (cons_ne_nil _ _)
          have rest (i : Nat) (c : Bound α) (hi : pos + 1 ≤ i) (hc : (p.bounds.set pos b')[i]? = some c) :
              c.args = [] := by
            rw [getElem?_set_ne (by omega)] at hc
            exact empty i c (by omega) hc
          have count : pos + (a :: byPosition args).length = pos + 1 + (byPosition args).length := by
            rw [length_cons, Nat.add_right_comm, Nat.add_assoc]
          obtain ⟨accepted, refused⟩ := ih (fun a mem => own a (mem_cons_of_mem _ mem)) step (by omega) rest
          rw [append_assoc] at accepted
          rw [positional, if_neg (not_not.mpr name), here, front, back, positionPlaces_cons, Nat.min_eq_left le,
            fitIn_cons (List.getElem?_eq_some_iff.mp parameter).1, count]
          simp only [if_neg variadic]
          exact ⟨accepted, refused⟩
    · have front : byPosition (a :: args) = [] := takeWhile_cons_of_neg (by simpa using name)
      have back : byName (a :: args) = a :: args := dropWhile_cons_of_neg (by simpa using name)
      rw [positional, if_pos name, front, back]
      exact ⟨fun _ => ⟨p, rfl, placed_nothing h le⟩, fun misfit => absurd fitIn_nil misfit⟩

/-- **The arguments that are given by name** go to their parameters, when each has one; the call is refused
otherwise. -/
theorem placed_named (args : List (Argument α)) (own : ∀ a ∈ args, a ∈ call)
    (h : Placed (Made H env callsReceiver call) ps ds absorbed p) :
    (FitIn ps (namePlaces ps args) → ∃ p', named missing args p = .ok p' ∧
      Placed (Made H env callsReceiver call) ps (ds ++ namePlaces ps args) absorbed p') ∧
    (¬ FitIn ps (namePlaces ps args) → ∃ which, named missing args p = .error (missing which)) := by
  induction args generalizing p ds with
  | nil => exact ⟨fun _ => ⟨p, rfl, by simpa [namePlaces] using h⟩, fun misfit => absurd fitIn_nil misfit⟩
  | cons a args ih =>
    have search : p.bounds.findIdx? (·.parameter.name = a.name) = ps.findIdx? (·.name = a.name) := by
      rw [← h.parameters, findIdx?_map]
      rfl
    rw [named, search, namePlaces, map_cons]
    split
    · next unknown =>
      refine ⟨fun fits => ?_, fun _ => ⟨_, rfl⟩⟩
      have beyond : ps.findIdx (·.name = a.name) = ps.length := findIdx?_eq_none_iff_findIdx_eq.mp unknown
      exact absurd beyond (Nat.ne_of_lt (fits _ mem_cons_self))
    · next i found =>
      obtain ⟨inside, place⟩ := findIdx?_eq_some_iff_findIdx_eq.mp found
      obtain ⟨b, here⟩ : ∃ b, p.bounds[i]? = some b :=
        ⟨_, getElem?_eq_getElem (h.bounds_length.symm ▸ inside)⟩
      obtain ⟨type, loose, source, passing⟩ := h.made b (mem_of_getElem? here)
      have made : Made H env callsReceiver call (b.giveNamed a) :=
        ⟨type, loose, source, fun values => (if_pos (values a (own a mem_cons_self))).trans (passing values)⟩
      have step := h.give here (show (b.giveNamed a).parameter = b.parameter from rfl) made rfl (cons_ne_nil _ _)
      obtain ⟨accepted, refused⟩ := ih (fun a mem => own a (mem_cons_of_mem _ mem)) step
      rw [append_assoc] at accepted
      rw [modify_eq_set_of_getElem? here, place, fitIn_cons inside]
      exact ⟨accepted, refused⟩

end Positional

/-! ## The last touches -/

end Binding

/-- **A bound has what its parameter declares** for a call that leaves it out: caller information comes before a default,
and a default before nothing. -/
inductive Bound.Supplied {α : Type} (site : CallSite) (b : Bound α) : Prop where
  | caller (info : CallerInfo) (declared : b.parameter.callerInfo = some info) (source : b.source = .caller)
    (constant : b.constant = some (site.constant info))
  | default (index : Nat) (type : Option Ty) (noInfo : b.parameter.callerInfo = none)
    (declared : b.parameter.default = some (.expression index type)) (source : b.source = .default index type)
  | constant (c : Constant) (noInfo : b.parameter.callerInfo = none)
    (declared : b.parameter.default = some (.constant c)) (source : b.source = .constant) (constant : b.constant = some c)
  | sentinel (noInfo : b.parameter.callerInfo = none) (noDefault : b.parameter.default = none)
    (declared : b.parameter.isOptional = true) (source : b.source = .sentinel)

theorem Bound.Supplied.not_actual {α : Type} {site : CallSite} {b : Bound α} (h : b.Supplied site) :
    b.source.isActual = false := by
  cases h with
  | caller _ _ source _ => rw [source]; rfl
  | default _ _ _ _ source => rw [source]; rfl
  | constant _ _ _ source _ => rw [source]; rfl
  | sentinel _ _ _ source => rw [source]; rfl

namespace Binding

/-- **What becomes of a bound in the end**: one that is variadic or counts as filled keeps its source, and the others are
supplied. -/
structure Touched (H : Hierarchy) (typeOf : α → Option Ty) (site : CallSite) (b : Bound α) (isFilled : Bool) (c : Bound α) :
    Prop where
  parameter : c.parameter = b.parameter
  type : c.type = b.type
  args : c.args = b.args
  passing : c.passing = b.passing
  packs : c.packs = if c.parameter.isVariadic then !passesThrough H typeOf c else b.packs
  source : b.parameter.isVariadic = true ∨ isFilled = true → c.source = b.source
  supplied : b.parameter.isVariadic = false → isFilled = false → c.Supplied site

section Finish

variable {H : Hierarchy} {typeOf : α → Option Ty} {missing : String → Fault} {site : CallSite}

theorem touched_supply (missing : String → Fault) (site : CallSite) (b : Bound α) (plain : b.parameter.isVariadic = false) :
    (b.parameter.HasSubstitute → ∃ c, supply missing site b = .ok c ∧ Touched H typeOf site b false c) ∧
    (¬ b.parameter.HasSubstitute → supply missing site b = .error (missing b.parameter.name)) := by
  have unfilled {P : Prop} : b.parameter.isVariadic = true ∨ false = true → P := fun h => absurd h (by simp [plain])
  have loose : b.packs = if b.parameter.isVariadic then !passesThrough H typeOf b else b.packs := by simp [plain]
  simp only [supply]
  split
  · next info declared =>
    refine ⟨fun _ => ⟨_, rfl, rfl, rfl, rfl, rfl, loose, unfilled, fun _ _ => .caller info declared rfl rfl⟩, fun without => ?_⟩
    exact absurd (.inl (by rw [declared]; rfl)) without
  · next index type noInfo declared =>
    refine ⟨fun _ => ⟨_, rfl, rfl, rfl, rfl, rfl, loose, unfilled, fun _ _ => .default index type noInfo declared rfl⟩, fun without => ?_⟩
    exact absurd (.inr (.inl (by rw [declared]; rfl))) without
  · next c noInfo declared =>
    refine ⟨fun _ => ⟨_, rfl, rfl, rfl, rfl, rfl, loose, unfilled, fun _ _ => .constant c noInfo declared rfl rfl⟩, fun without => ?_⟩
    exact absurd (.inr (.inl (by rw [declared]; rfl))) without
  · next noInfo noDefault =>
    have only : b.parameter.HasSubstitute ↔ b.parameter.isOptional = true := by
      simp [Parameter.HasSubstitute, noInfo, noDefault]
    rw [only]
    split
    · next optional =>
      refine ⟨fun _ => ⟨_, rfl, rfl, rfl, rfl, rfl, loose, unfilled, fun _ _ => .sentinel noInfo noDefault optional rfl⟩, fun without => ?_⟩
      exact absurd optional without
    · next required => exact ⟨fun optional => absurd optional required, fun _ => rfl⟩

/-- Nothing can be supplied for a bound that has to be. -/
def Lacking (b : Bound α) (isFilled : Bool) : Prop :=
  b.parameter.isVariadic = false ∧ isFilled = false ∧ ¬ b.parameter.HasSubstitute

def touch (H : Hierarchy) (typeOf : α → Option Ty) (missing : String → Fault) (site : CallSite) (b : Bound α)
    (isFilled : Bool) : Except Fault (Bound α) :=
  if b.parameter.isVariadic then pure { b with packs := !passesThrough H typeOf b }
  else if isFilled then pure b
  else supply missing site b

theorem finish_cons (b : Bound α) (bounds : List (Bound α)) (isFilled : Bool) (filled : List Bool) :
    finish H typeOf missing site (b :: bounds) (isFilled :: filled) = (do
      let c ← touch H typeOf missing site b isFilled
      let cs ← finish H typeOf missing site bounds filled
      pure (c :: cs)) := by
  rw [finish, touch]
  split
  · rfl
  · split
    · rfl
    · rfl

theorem touched_touch (H : Hierarchy) (typeOf : α → Option Ty) (missing : String → Fault) (site : CallSite) (b : Bound α)
    (isFilled : Bool) :
    (¬ Lacking b isFilled → ∃ c, touch H typeOf missing site b isFilled = .ok c ∧ Touched H typeOf site b isFilled c) ∧
    (Lacking b isFilled → ∃ which, touch H typeOf missing site b isFilled = .error (missing which)) := by
  rw [touch]
  split
  · next variadic =>
    have plain : b.parameter.isVariadic ≠ false := by simp [variadic]
    exact ⟨fun _ => ⟨_, rfl, rfl, rfl, rfl, rfl, (if_pos variadic).symm, fun _ => rfl, fun h _ => absurd h plain⟩, fun lacking => absurd lacking.1 plain⟩
  · next variadic =>
    cases isFilled with
    | true => exact ⟨fun _ => ⟨b, rfl, rfl, rfl, rfl, rfl, (if_neg variadic).symm, fun _ => rfl, nofun⟩, fun lacking => nomatch lacking.2.1⟩
    | false =>
      have plain : b.parameter.isVariadic = false := by simpa using variadic
      obtain ⟨accepted, refused⟩ := touched_supply missing site b plain
      refine ⟨fun supplied => accepted ?_, fun lacking => ⟨_, refused lacking.2.2⟩⟩
      by_contra without
      exact supplied ⟨plain, rfl, without⟩

theorem touched_finish {bounds : List (Bound α)} {filled : List Bool} (length : filled.length = bounds.length) :
    ((∀ x ∈ bounds.zip filled, ¬ Lacking x.1 x.2) → ∃ finished, finish H typeOf missing site bounds filled = .ok finished ∧
        Forall₂ (fun x c => Touched H typeOf site x.1 x.2 c) (bounds.zip filled) finished) ∧
    ((∃ x ∈ bounds.zip filled, Lacking x.1 x.2) →
      ∃ which, finish H typeOf missing site bounds filled = .error (missing which)) := by
  induction bounds generalizing filled with
  | nil => exact ⟨fun _ => ⟨[], rfl, .nil⟩, by simp⟩
  | cons b bounds ih =>
    cases filled with
    | nil => cases length
    | cons isFilled filled =>
      obtain ⟨accepted, refused⟩ := ih (Nat.succ.inj length)
      obtain ⟨touched, lacking⟩ := touched_touch H typeOf missing site b isFilled
      rw [finish_cons]
      constructor
      · intro all
        obtain ⟨here, rest⟩ := forall_mem_cons.mp all
        obtain ⟨c, run, hc⟩ := touched here
        obtain ⟨cs, runs, hcs⟩ := accepted rest
        exact ⟨c :: cs, bind_eq_ok.mpr ⟨c, run, bind_eq_ok.mpr ⟨cs, runs, rfl⟩⟩, .cons hc hcs⟩
      · intro some
        by_cases here : Lacking b isFilled
        · obtain ⟨which, run⟩ := lacking here
          exact ⟨which, by rw [run]; rfl⟩
        · obtain ⟨c, run, -⟩ := touched here
          obtain ⟨which, runs⟩ := refused (by simpa [here] using some)
          exact ⟨which, by rw [run, runs]; rfl⟩

end Finish

/-! ## Whole calls -/

/-- **The arguments of a call**: a receiver is the first one of an extension method. -/
def actuals (method : Symbol) (receiver : Option α) (args : List (Argument α)) : List (Argument α) :=
  match receiver with
  | some r => if method.isExtension then { value := r } :: args else args
  | none => args

section Call

variable (ps : List Parameter) (call : List (Argument α))

def given (k : Nat) : List α := valuesAt (places ps call) k

/-- Each argument of a call has a parameter. -/
def Fits : Prop := FitIn ps (places ps call)

def Absorbs : Prop := variadicAt ps < ps.length ∧ variadicAt ps < (byPosition call).length

end Call

section Bind

variable {H : Hierarchy} {typeOf : α → Option Ty} {method : Symbol} {receiver : Option α} {args : List (Argument α)}
  {site : CallSite}

/-- What is put into the types of the parameters: the type arguments of the receiver. -/
def environment (typeOf : α → Option Ty) (method : Symbol) (receiver : Option α) : TypeEnv :=
  if method.isExtension then [] else ((receiver.bind typeOf).bind Ty.env?).getD []

/-- The arguments of a call go to the bounds, first those that are given by position. -/
def place (missing : String → Fault) (callsReceiver : Bool) (call : List (Argument α)) (p : Progress α) :
    Except Fault (Progress α) :=
  positional missing callsReceiver call 0 p >>= fun x => named missing x.1 x.2

theorem bind_of_typed (typed : Typed H (environment typeOf method receiver) method.parameters) :
    bind H typeOf method receiver args site =
      place (.unboundParameter (site.place.getD {}) method.name) (method.isExtension && receiver.isSome)
        (actuals method receiver args) (unplaced H (environment typeOf method receiver) method.parameters) >>= fun p =>
      finish H typeOf (.unboundParameter (site.place.getD {}) method.name) site p.bounds p.filled := by
  simp only [place, bind_assoc]
  exact congrArg (· >>= _) (start_of_typed typed)

theorem bind_of_untyped (untyped : ¬ Typed H (environment typeOf method receiver) method.parameters) :
    bind H typeOf method receiver args site = .error TypeExpr.endless :=
  congrArg (· >>= _) (start_of_untyped untyped)

theorem placed_place (missing : String → Fault) {env : TypeEnv} {callsReceiver : Bool} {call : List (Argument α)}
    (h : Placed (Made H env callsReceiver call) ps [] False p) :
    (Fits ps call → ∃ p', place missing callsReceiver call p = .ok p' ∧
      Placed (Made H env callsReceiver call) ps (places ps call) (Absorbs ps call) p') ∧
    (¬ Fits ps call → ∃ which, place missing callsReceiver call p = .error (missing which)) := by
  have both : Fits ps call ↔
      FitIn ps (positionPlaces ps (byPosition call) 0) ∧ FitIn ps (namePlaces ps (byName call)) := by
    rw [Fits, FitIn, places, forall_mem_append]
    rfl
  have absorbs : (variadicAt ps < ps.length ∧ variadicAt ps < 0 + (byPosition call).length) = Absorbs ps call := by
    rw [Nat.zero_add, Absorbs]
  have empty (i : Nat) (b : Bound α) (_ : 0 ≤ i) (here : p.bounds[i]? = some b) : b.args = [] := h.args i b here
  obtain ⟨accepted, refused⟩ := placed_positional missing call (fun _ => id) h (Nat.zero_le _) empty
  rw [both, place]
  by_cases positions : FitIn ps (positionPlaces ps (byPosition call) 0)
  · obtain ⟨p', run, placed⟩ := accepted positions
    rw [absorbs] at placed
    obtain ⟨acceptedNames, refusedNames⟩ := placed_named missing (byName call) (fun _ => (dropWhile_sublist _).mem) placed
    rw [run]
    exact ⟨fun fits => acceptedNames fits.2, fun misfit => refusedNames fun names => misfit ⟨positions, names⟩⟩
  · obtain ⟨which, run⟩ := refused positions
    rw [run]
    exact ⟨fun fits => absurd fits.1 positions, fun _ => ⟨which, rfl⟩⟩

variable {bounds : List (Bound α)}

/-- **What the bounds of an accepted call are**: those with its arguments at their places, after the last touches. -/
theorem touched_bind (run : bind H typeOf method receiver args site = .ok bounds) :
    Fits method.parameters (actuals method receiver args) ∧ ∃ p,
      Placed (Made H (environment typeOf method receiver) (method.isExtension && receiver.isSome) (actuals method receiver args))
        method.parameters (places method.parameters (actuals method receiver args))
        (Absorbs method.parameters (actuals method receiver args)) p ∧
      Forall₂ (fun x c => Touched H typeOf site x.1 x.2 c) (p.bounds.zip p.filled) bounds := by
  have typed : Typed H (environment typeOf method receiver) method.parameters := by
    by_contra untyped
    rw [bind_of_untyped untyped] at run
    cases run
  rw [bind_of_typed typed] at run
  obtain ⟨p, place, run⟩ := bind_eq_ok.mp run
  obtain ⟨accepted, refused⟩ := placed_place (.unboundParameter (site.place.getD {}) method.name)
    (placed_unplaced (method.isExtension && receiver.isSome) (actuals method receiver args) typed)
  have fits : Fits method.parameters (actuals method receiver args) := by
    by_contra misfit
    obtain ⟨which, refused⟩ := refused misfit
    rw [refused] at place
    cases place
  obtain ⟨p', made, h⟩ := accepted fits
  obtain rfl : p' = p := Except.ok.inj (made.symm.trans place)
  refine ⟨fits, p', h, ?_⟩
  by_cases lacking : ∃ x ∈ p'.bounds.zip p'.filled, Lacking x.1 x.2
  · obtain ⟨which, refused⟩ := (touched_finish h.length).2 lacking
    rw [refused] at run
    cases run
  · obtain ⟨finished, made, touched⟩ := (touched_finish h.length).1 fun x mem lacks => lacking ⟨x, mem, lacks⟩
    obtain rfl : finished = bounds := Except.ok.inj (made.symm.trans run)
    exact touched

/-- There is one bound for each parameter. -/
theorem parameters_of_bind (run : bind H typeOf method receiver args site = .ok bounds) :
    bounds.map (·.parameter) = method.parameters := by
  obtain ⟨-, p, h, touched⟩ := touched_bind run
  have same : ((p.bounds.zip p.filled).map (·.1)).map (·.parameter) = bounds.map (·.parameter) := by
    rw [map_map]
    exact map_eq_map_of_forall₂ (touched.imp fun _ _ touch => touch.parameter.symm)
  rw [map_fst_zip (Nat.le_of_eq h.length.symm), h.parameters] at same
  exact same.symm

/-- What the bound at a position of an accepted call has become of. -/
theorem touched_at (run : bind H typeOf method receiver args site = .ok bounds) {k : Nat} {c : Bound α}
    (here : bounds[k]? = some c) : ∃ b isFilled, Touched H typeOf site b isFilled c ∧
      Made H (environment typeOf method receiver) (method.isExtension && receiver.isSome) (actuals method receiver args) b ∧
      b.args = given method.parameters (actuals method receiver args) k ∧
      (b.parameter.isVariadic = false → (isFilled = true ↔ given method.parameters (actuals method receiver args) k ≠ [] ∨
        (Absorbs method.parameters (actuals method receiver args) ∧ k + 1 = method.parameters.length))) := by
  obtain ⟨-, p, h, touched⟩ := touched_bind run
  obtain ⟨⟨b, isFilled⟩, at', touch⟩ := getElem?_of_forall₂ touched here
  obtain ⟨here, marked⟩ := getElem?_zip_eq_some.mp at'
  exact ⟨b, isFilled, touch, h.made b (mem_of_getElem? here), h.args k b here, fun plain => h.filled k b _ here plain marked⟩

end Bind

end Binding

end Polyglot
