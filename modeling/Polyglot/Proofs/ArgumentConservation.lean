import Polyglot.Proofs.ArgumentPlaces

/-!
# Binding keeps every argument

When the arguments of a call are bound, each parameter has one bound, in the order of declaration, and the values in the bounds
are exactly the values of the call: none is lost, given twice or replaced by a default.
-/

namespace Polyglot.Binding

open List

variable {α : Type} {ps : List Parameter}

/-! ## All places together -/

theorem flatMap_valuesAt_perm (ds : List (Nat × α)) (n : Nat) :
    ((range n).flatMap (valuesAt ds)).Perm ((ds.filter (·.1 < n)).map (·.2)) := by
  induction n with
  | zero => simp
  | succ n ih =>
    rw [range_succ, flatMap_append, flatMap_singleton]
    have before : (ds.filter (·.1 < n + 1)).filter (·.1 < n) = ds.filter (·.1 < n) := by
      rw [filter_filter]
      exact filter_congr fun d _ => by grind
    have here : (ds.filter (·.1 < n + 1)).filter (fun d => !decide (d.1 < n)) = ds.filter (·.1 = n) := by
      rw [filter_filter]
      exact filter_congr fun d _ => by grind
    have split := filter_append_perm (fun d : Nat × α => decide (d.1 < n)) (ds.filter (·.1 < n + 1))
    rw [before, here] at split
    refine (ih.append_right _).trans ?_
    rw [valuesAt, ← map_append]
    exact split.map _

variable (args : List (Argument α)) {k : Nat}

theorem map_snd_positionPlaces (pos : Nat) : (positionPlaces ps args pos).map (·.2) = args.map (·.value) := by
  induction args generalizing pos with
  | nil => rfl
  | cons a args ih => rw [positionPlaces_cons, map_cons, ih, map_cons]

/-- Every argument has its place. -/
theorem map_snd_places (call : List (Argument α)) : (places ps call).map (·.2) = call.map (·.value) := by
  have named : (namePlaces ps (byName call)).map (·.2) = (byName call).map (·.value) := map_map
  rw [places, map_append, map_snd_positionPlaces, named, ← map_append, byPosition, byName, takeWhile_append_dropWhile]

/-- The first variadic parameter takes the positional arguments from its own position on, in their order. -/
theorem valuesAt_variadicAt {pos : Nat} (le : pos ≤ variadicAt ps) :
    valuesAt (positionPlaces ps args pos) (variadicAt ps) = (args.drop (variadicAt ps - pos)).map (·.value) := by
  induction args generalizing pos with
  | nil => simp [positionPlaces, valuesAt]
  | cons a args ih =>
    rcases Nat.eq_or_lt_of_le le with here | before
    · rw [positionPlaces_of_le _ (Nat.le_of_eq here.symm), valuesAt_map_self, here, Nat.sub_self, drop_zero]
    · have offset : variadicAt ps - pos = (variadicAt ps - (pos + 1)) + 1 := by omega
      rw [positionPlaces_cons, Nat.min_eq_left le, offset, drop_succ_cons, ← ih before]
      simp [valuesAt, Nat.ne_of_lt before]

/-- Each argument before the first variadic parameter goes to the parameter at its position. -/
theorem valuesAt_positionPlaces (before : k < variadicAt ps) (pos : Nat) :
    valuesAt (positionPlaces ps args pos) k = if pos ≤ k then ((args[k - pos]?).map (·.value)).toList else [] := by
  induction args generalizing pos with
  | nil => simp [positionPlaces, valuesAt]
  | cons a args ih =>
    have rest := ih (pos + 1)
    unfold valuesAt at rest ⊢
    rw [positionPlaces_cons]
    grind

/-! ## Whole calls -/

variable {H : Hierarchy} {typeOf : α → Option Ty} {method : Symbol} {receiver : Option α} {args : List (Argument α)}
  {site : CallSite} {bounds : List (Bound α)}

/-- A bound has the values that go to its position, and one that does not come from the call has none. -/
theorem args_of_bind (run : bind H typeOf method receiver args site = .ok bounds) {c : Bound α}
    (here : bounds[k]? = some c) :
    c.args = given method.parameters (actuals method receiver args) k ∧ (c.source.isActual = false → c.args = []) := by
  obtain ⟨b, isFilled, touch, made, args, filled⟩ := touched_at run here
  refine ⟨touch.args.trans args, fun supplied => ?_⟩
  have other : ¬ (b.parameter.isVariadic = true ∨ isFilled = true) := by
    intro kept
    rw [touch.source kept, made.actual] at supplied
    cases supplied
  obtain ⟨plain, unfilled⟩ := not_or.mp other
  have nothing := (filled (by simpa using plain)).not.mp unfilled
  rw [touch.args, args]
  exact not_not.mp (not_or.mp nothing).1

/-- There is one bound for each parameter, and the values that come from the call are those of its arguments. -/
theorem bounds_of_bind (run : bind H typeOf method receiver args site = .ok bounds) :
    bounds.map (·.parameter) = method.parameters ∧
      ((bounds.filter (·.source.isActual)).flatMap (·.args)).Perm ((actuals method receiver args).map (·.value)) := by
  obtain ⟨fits, -⟩ := touched_bind run
  have parameters := parameters_of_bind run
  refine ⟨parameters, ?_⟩
  have kept : (bounds.filter (·.source.isActual)).flatMap (·.args) = bounds.flatMap (·.args) := by
    have empty (c : Bound α) (mem : c ∈ bounds) : c.source.isActual = false → c.args = [] := by
      obtain ⟨k, here⟩ := mem_iff_getElem?.mp mem
      exact (args_of_bind run here).2
    clear run parameters
    induction bounds with
    | nil => rfl
    | cons c bounds ih =>
      have rest := ih fun c mem => empty c (mem_cons_of_mem _ mem)
      rw [filter_cons, flatMap_cons, ← rest]
      split
      · rw [flatMap_cons]
      · next supplied => rw [empty c mem_cons_self (by simpa using supplied), nil_append]
  have values : bounds.map (·.args) =
      (range method.parameters.length).map (given method.parameters (actuals method receiver args)) := by
    refine ext_getElem? fun k => ?_
    have length : bounds.length = method.parameters.length := by rw [← parameters, length_map]
    rw [getElem?_map, getElem?_map]
    by_cases inside : k < bounds.length
    · rw [getElem?_eq_getElem inside, getElem?_range (length ▸ inside), Option.map_some, Option.map_some,
        (args_of_bind run (getElem?_eq_getElem inside)).1]
    · simp [inside, ← length]
  have all : (places method.parameters (actuals method receiver args)).filter (·.1 < method.parameters.length) =
      places method.parameters (actuals method receiver args) :=
    filter_eq_self.mpr fun d mem => by simpa using fits d mem
  have perm := flatMap_valuesAt_perm (places method.parameters (actuals method receiver args)) method.parameters.length
  rw [all, map_snd_places] at perm
  rw [kept, flatMap_def, values]
  exact perm

/-- **Binding keeps every argument.** There is one bound for each parameter in the order of declaration. The
values that come from the call are those of its arguments, each as often as it is there. The first variadic
parameter begins with the positional arguments from its own position on, in their order. -/
theorem bind_conserves {H : Hierarchy} {typeOf : α → Option Ty} {method : Symbol} {receiver : Option α}
    {args : List (Argument α)} {site : CallSite} {bounds : List (Bound α)}
    (run : bind H typeOf method receiver args site = .ok bounds) :
    bounds.map (·.parameter) = method.parameters ∧
      ((bounds.filter (·.source.isActual)).flatMap (·.args)).Perm
        ((actuals method receiver args).map (·.value)) ∧
      ∀ k, method.parameters.findIdx? (·.isVariadic) = some k →
        ∃ b, bounds[k]? = some b ∧
          (((actuals method receiver args).takeWhile (·.name = "")).drop k).map (·.value) <+: b.args := by
  obtain ⟨parameters, perm⟩ := bounds_of_bind run
  refine ⟨parameters, perm, fun k first => ?_⟩
  obtain ⟨inside, place⟩ := findIdx?_eq_some_iff_findIdx_eq.mp first
  rw [← parameters, length_map] at inside
  have here : bounds[k]? = some bounds[k] := getElem?_eq_getElem inside
  refine ⟨_, here, ?_⟩
  rw [(args_of_bind run here).1, given, places, valuesAt_append, ← place]
  have positions := valuesAt_variadicAt (byPosition (actuals method receiver args)) (Nat.zero_le (variadicAt method.parameters))
  exact positions ▸ prefix_append _ _

/-- A call of an extension method with a receiver, positional arguments, of which the variadic parameter takes two,
and one more value for it by name; the parameters behind it are left out. -/
theorem bind_conserves_extension :
    let int := Ty.primitive .int32
    let parameters : List Parameter :=
      [{ name := "self", type := int, isThis := true }, { name := "first", type := int },
        { name := "items", type := .array int, isVariadic := true },
        { name := "mode", type := int, default := some (.constant ⟨.int, "7"⟩) },
        { name := "line", type := int, callerInfo := some .lineNumber }]
    let method : Symbol := { kind := .method, name := "Add", parameters, isExtension := true }
    let args : List (Argument Nat) := [⟨1, "", .byValue⟩, ⟨2, "", .byValue⟩, ⟨3, "", .byRef⟩, ⟨4, "items", .byValue⟩]
    ∃ bounds, bind {} (fun _ => none) method (some 0) args {} = .ok bounds ∧
      bounds.map (·.parameter) = parameters ∧
      ((bounds.filter (·.source.isActual)).flatMap (·.args)).Perm [0, 1, 2, 3, 4] ∧
      ∀ k, parameters.findIdx? (·.isVariadic) = some k →
        ∃ b, bounds[k]? = some b ∧
          (((actuals method (some 0) args).takeWhile (·.name = "")).drop k).map (·.value) <+: b.args := by
  intro int parameters method args
  obtain ⟨bounds, run⟩ : ∃ bounds, bind {} (fun _ => none) method (some 0) args {} = .ok bounds := ⟨_, rfl⟩
  exact ⟨bounds, run, bind_conserves run⟩

end Polyglot.Binding
