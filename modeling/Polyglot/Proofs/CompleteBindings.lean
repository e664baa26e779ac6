import Polyglot.Emit.Call
import Polyglot.Proofs.ArgumentPlaces

/-!
# Which calls are accepted

What a call gives to each parameter (`Binding.given`) settles what becomes of it. It is refused when an argument has no
parameter, or a parameter has neither an argument nor a substitute. Otherwise it is accepted, and each parameter has its one
value, unless a parameter is given two, or the last one is left out behind a variadic parameter that takes arguments.
-/

namespace Polyglot

open List

/-- **A bound has its one value**: one argument of the call, or none and what the parameter declares. -/
inductive Bound.Complete {α : Type} (site : CallSite) (b : Bound α) : Prop where
  | given (value : α) (args : b.args = [value]) (actual : b.source.isActual = true)
  | left (args : b.args = []) (supplied : b.Supplied site)

/-- A bound that counts as given by the call, but not with one argument. -/
structure Bound.Broken {α : Type} (b : Bound α) : Prop where
  plain : b.parameter.isVariadic = false
  actual : b.source.isActual = true
  count : b.args.length ≠ 1

theorem Bound.Complete.not_broken {α : Type} {site : CallSite} {b : Bound α} (h : b.Complete site) : ¬ b.Broken := by
  rintro ⟨-, actual, count⟩
  cases h with
  | given value args _ => exact count (by rw [args]; rfl)
  | left _ supplied =>
    rw [supplied.not_actual] at actual
    cases actual

namespace Binding

variable {α : Type}

/-! ## What a call says -/

section Call

variable (ps : List Parameter) (call : List (Argument α))

/-- No parameter but a variadic one is given two values. -/
def Single : Prop := ∀ k q, ps[k]? = some q → q.isVariadic = false → (given ps call k).length ≤ 1

/-- The parameter at a position counts as given: it is, or it is the last one and a variadic one takes arguments. -/
def Counts (k : Nat) : Prop := given ps call k ≠ [] ∨ (Absorbs ps call ∧ k + 1 = ps.length)

/-- A call gives nothing to a parameter, which is not variadic. -/
structure LeavesOut (k : Nat) (q : Parameter) : Prop where
  parameter : ps[k]? = some q
  plain : q.isVariadic = false
  nothing : given ps call k = []

/-- **A call in order**: each argument has a parameter, no parameter is given two values, and those that are left out may
be. -/
structure IsProper : Prop where
  fits : Fits ps call
  single : Single ps call
  covered : ∀ k q, LeavesOut ps call k q → q.HasSubstitute

/-- The last parameter is left out, while a variadic one before it takes arguments. -/
def Skips : Prop := Absorbs ps call ∧ ∃ k q, LeavesOut ps call k q ∧ k + 1 = ps.length

/-- A parameter is left out that may not be; the last one behind a variadic one that takes arguments does not count. -/
def Lacks : Prop := ∃ k q, LeavesOut ps call k q ∧ ¬ q.HasSubstitute ∧ ¬ (Absorbs ps call ∧ k + 1 = ps.length)

/-- What a parameter has when a call is accepted. -/
structure Answers (site : CallSite) (k : Nat) (c : Bound α) : Prop where
  args : c.args = given ps call k
  actual : Counts ps call k → c.source.isActual = true
  supplied : ¬ Counts ps call k → c.Supplied site

end Call

section Bind

variable {H : Hierarchy} {typeOf : α → Option Ty} {method : Symbol} {receiver : Option α} {args : List (Argument α)}
  {site : CallSite} {ps : List Parameter} {call : List (Argument α)} {p : Progress α} {bounds : List (Bound α)}
  {M : Bound α → Prop}

/-- A parameter lacks a value in the end exactly when the call leaves out one that it may not leave out. -/
theorem lacking_iff (h : Placed M ps (places ps call) (Absorbs ps call) p) :
    (∃ x ∈ p.bounds.zip p.filled, Lacking x.1 x.2) ↔ Lacks ps call := by
  constructor
  · rintro ⟨⟨b, isFilled⟩, mem, plain, rfl, without⟩
    obtain ⟨k, at'⟩ := mem_iff_getElem?.mp mem
    obtain ⟨here, marked⟩ := getElem?_zip_eq_some.mp at'
    have unfilled := (h.filled k b false here plain marked).not.mp Bool.false_ne_true
    rw [not_or, not_not] at unfilled
    exact ⟨k, b.parameter, ⟨h.parameter_at here, plain, unfilled.1⟩, without, unfilled.2⟩
  · rintro ⟨k, q, ⟨parameter, plain, nothing⟩, without, early⟩
    obtain ⟨inside, -⟩ := List.getElem?_eq_some_iff.mp parameter
    rw [← h.bounds_length] at inside
    have marks : k < p.filled.length := h.length ▸ inside
    have here : p.bounds[k]? = some p.bounds[k] := getElem?_eq_getElem inside
    have marked : p.filled[k]? = some p.filled[k] := getElem?_eq_getElem marks
    obtain rfl : q = p.bounds[k].parameter := Option.some.inj (parameter.symm.trans (h.parameter_at here))
    have unfilled : p.filled[k] = false := by
      rw [Bool.eq_false_iff, Ne, h.filled k _ _ here plain marked, not_or, not_not]
      exact ⟨nothing, early⟩
    refine ⟨(p.bounds[k], p.filled[k]), mem_iff_getElem?.mpr ⟨k, ?_⟩, plain, unfilled, without⟩
    exact getElem?_zip_eq_some.mpr ⟨here, marked⟩

/-- **The bounds of an accepted call** answer it. -/
theorem answers_of_bind (run : bind H typeOf method receiver args site = .ok bounds) {k : Nat} {c : Bound α}
    (here : bounds[k]? = some c) (plain : c.parameter.isVariadic = false) :
    Answers method.parameters (actuals method receiver args) site k c := by
  obtain ⟨b, isFilled, touch, made, args, filled⟩ := touched_at run here
  rw [touch.parameter] at plain
  refine ⟨touch.args.trans args, fun given => ?_, fun nothing => ?_⟩
  · rw [touch.source (.inr ((filled plain).mpr given))]
    exact made.actual
  · exact touch.supplied plain (by simpa using (filled plain).not.mpr nothing)

namespace Answers

variable {k : Nat} {c : Bound α}

theorem broken_iff (h : Answers ps call site k c) (plain : c.parameter.isVariadic = false) :
    c.Broken ↔ Counts ps call k ∧ (given ps call k).length ≠ 1 := by
  rw [← h.args]
  constructor
  · rintro ⟨-, actual, count⟩
    refine ⟨?_, count⟩
    by_contra nothing
    rw [(h.supplied nothing).not_actual] at actual
    cases actual
  · rintro ⟨counts, count⟩
    exact ⟨plain, h.actual counts, count⟩

theorem complete_of_not_broken (h : Answers ps call site k c) (plain : c.parameter.isVariadic = false)
    (whole : ¬ c.Broken) : c.Complete site := by
  by_cases counts : Counts ps call k
  · have one : c.args.length = 1 := by
      by_contra count
      exact whole ⟨plain, h.actual counts, count⟩
    obtain ⟨value, args⟩ := length_eq_one_iff.mp one
    exact .given value args (h.actual counts)
  · refine .left ?_ (h.supplied counts)
    rw [h.args]
    exact not_not.mp (not_or.mp counts).1

end Answers

theorem exists_broken_iff (parameters : bounds.map (·.parameter) = ps)
    (answers : ∀ k c, bounds[k]? = some c → c.parameter.isVariadic = false → Answers ps call site k c) :
    (∃ b ∈ bounds, b.Broken) ↔ ¬ Single ps call ∨ Skips ps call := by
  -- Both sides are about one parameter that counts as given and has no value or too many.
  have broken_at : (∃ b ∈ bounds, b.Broken) ↔
      ∃ k q, ps[k]? = some q ∧ q.isVariadic = false ∧ Counts ps call k ∧ (given ps call k).length ≠ 1 := by
    constructor
    · rintro ⟨b, mem, broken⟩
      obtain ⟨k, here⟩ := mem_iff_getElem?.mp mem
      have counts := ((answers k b here broken.plain).broken_iff broken.plain).mp broken
      exact ⟨k, b.parameter, by rw [← parameters, getElem?_map, here]; rfl, broken.plain, counts⟩
    · rintro ⟨k, q, here, plain, counts⟩
      rw [← parameters, getElem?_map] at here
      obtain ⟨b, there, rfl⟩ := Option.map_eq_some_iff.mp here
      exact ⟨b, mem_of_getElem? there, ((answers k b there plain).broken_iff plain).mpr counts⟩
  rw [broken_at]
  constructor
  · rintro ⟨k, q, here, plain, counts, count⟩
    by_cases nothing : given ps call k = []
    · obtain ⟨absorbs, last⟩ := counts.resolve_left (not_not.mpr nothing)
      exact .inr ⟨absorbs, k, q, ⟨here, plain, nothing⟩, last⟩
    · refine .inl fun single => ?_
      have some := length_pos_iff.mpr nothing
      have most := single k q here plain
      omega
  · rintro (twice | ⟨absorbs, k, q, ⟨here, plain, nothing⟩, last⟩)
    · simp only [Single, not_forall] at twice
      obtain ⟨k, q, here, plain, two⟩ := twice
      have some : given ps call k ≠ [] := length_pos_iff.mp (by omega)
      exact ⟨k, q, here, plain, .inl some, by omega⟩
    · exact ⟨k, q, here, plain, .inr ⟨absorbs, last⟩, by rw [nothing]; exact Nat.zero_ne_one⟩

/-- Each parameter has its one value unless one has none or several. -/
theorem forall_complete_iff (answers : ∀ k c, bounds[k]? = some c → c.parameter.isVariadic = false → Answers ps call site k c) :
    (∀ b ∈ bounds, b.parameter.isVariadic = false → b.Complete site) ↔ ¬ ∃ b ∈ bounds, b.Broken := by
  constructor
  · rintro all ⟨b, mem, broken⟩
    exact (all b mem broken.plain).not_broken broken
  · intro whole b mem plain
    obtain ⟨k, here⟩ := mem_iff_getElem?.mp mem
    exact (answers k b here plain).complete_of_not_broken plain fun broken => whole ⟨b, mem, broken⟩

/-! ## Whole calls -/

/-- **What becomes of a call**: a type cannot be put down, or it is refused, or its bounds answer it. -/
inductive Outcome (H : Hierarchy) (env : TypeEnv) (method : Symbol) (call : List (Argument α)) (site : CallSite) :
    Except Fault (List (Bound α)) → Prop
  | endless (untyped : ¬ Typed H env method.parameters) : Outcome H env method call site (.error TypeExpr.endless)
  | refused (typed : Typed H env method.parameters) (bad : ¬ Fits method.parameters call ∨ Lacks method.parameters call)
      (which : String) :
    Outcome H env method call site (.error (.unboundParameter (site.place.getD {}) method.name which))
  | accepted (typed : Typed H env method.parameters) (fits : Fits method.parameters call)
      (enough : ¬ Lacks method.parameters call) (bounds : List (Bound α))
      (parameters : bounds.map (·.parameter) = method.parameters)
      (answers : ∀ k c, bounds[k]? = some c → c.parameter.isVariadic = false → Answers method.parameters call site k c) :
    Outcome H env method call site (.ok bounds)

theorem outcome_bind : Outcome H (environment typeOf method receiver) method (actuals method receiver args) site
    (bind H typeOf method receiver args site) := by
  by_cases typed : Typed H (environment typeOf method receiver) method.parameters
  swap
  · rw [bind_of_untyped typed]
    exact .endless typed
  obtain ⟨accepted, refused⟩ := placed_place (.unboundParameter (site.place.getD {}) method.name)
    (placed_unplaced (method.isExtension && receiver.isSome) (actuals method receiver args) typed)
  have run : bind H typeOf method receiver args site = _ := bind_of_typed typed
  by_cases fits : Fits method.parameters (actuals method receiver args)
  swap
  · obtain ⟨which, place⟩ := refused fits
    rw [run, place]
    exact .refused typed (.inl fits) which
  obtain ⟨p, place, h⟩ := accepted fits
  rw [place] at run
  by_cases lacks : Lacks method.parameters (actuals method receiver args)
  · obtain ⟨which, finish⟩ := (touched_finish h.length).2 ((lacking_iff h).mpr lacks)
    rw [run.trans finish]
    exact .refused typed (.inr lacks) which
  · have enough (x : Bound α × Bool) (mem : x ∈ p.bounds.zip p.filled) : ¬ Lacking x.1 x.2 :=
      fun lacking => lacks ((lacking_iff h).mp ⟨x, mem, lacking⟩)
    obtain ⟨bounds, finish, -⟩ := (touched_finish h.length).1 enough
    have accepted := run.trans finish
    rw [accepted]
    exact .accepted typed fits lacks bounds (parameters_of_bind accepted) fun _ _ => answers_of_bind accepted

/-- A call in order is one that fits, is not refused and gives each parameter one value, when it does not skip the last
parameter. -/
theorem isProper_iff (through : ¬ Skips ps call) : IsProper ps call ↔ Fits ps call ∧ ¬ Lacks ps call ∧ Single ps call := by
  constructor
  · rintro ⟨fits, single, covered⟩
    refine ⟨fits, ?_, single⟩
    rintro ⟨k, q, leaves, without, -⟩
    exact without (covered k q leaves)
  · rintro ⟨fits, enough, single⟩
    refine ⟨fits, single, fun k q leaves => ?_⟩
    by_contra without
    exact enough ⟨k, q, leaves, without, fun ⟨absorbs, last⟩ => through ⟨absorbs, k, q, leaves, last⟩⟩

namespace Outcome

variable {env : TypeEnv} {result : Except Fault (List (Bound α))} (outcome : Outcome H env method call site result)
include outcome

/-- Only a type that cannot be put down ends a call otherwise. -/
theorem endless_iff : result = .error TypeExpr.endless ↔ ¬ Typed H env method.parameters := by
  cases outcome with
  | endless untyped => exact iff_of_true rfl untyped
  | refused typed | accepted typed => exact iff_of_false (by rintro ⟨⟩) (not_not.mpr typed)

/-- Which calls are refused. -/
theorem refused_iff : (∃ which, result = .error (.unboundParameter (site.place.getD {}) method.name which)) ↔
    Typed H env method.parameters ∧ (¬ Fits method.parameters call ∨ Lacks method.parameters call) := by
  cases outcome with
  | endless untyped => exact iff_of_false (by rintro ⟨_, ⟨⟩⟩) fun h => untyped h.1
  | refused typed bad which => exact iff_of_true ⟨which, rfl⟩ ⟨typed, bad⟩
  | accepted _ fits enough => exact iff_of_false (by rintro ⟨_, ⟨⟩⟩) fun h => h.2.elim (· fits) enough

/-- Which calls are accepted with one value for each parameter. -/
theorem complete_iff : (∃ bounds, result = .ok bounds ∧ ∀ b ∈ bounds, b.parameter.isVariadic = false → b.Complete site) ↔
    Typed H env method.parameters ∧ IsProper method.parameters call ∧ ¬ Skips method.parameters call := by
  cases outcome with
  | endless untyped => exact iff_of_false (by rintro ⟨_, ⟨⟩, _⟩) fun h => untyped h.1
  | refused _ bad =>
    refine iff_of_false (by rintro ⟨_, ⟨⟩, _⟩) fun ⟨_, proper, through⟩ => ?_
    obtain ⟨fits, enough, -⟩ := (isProper_iff through).mp proper
    exact bad.elim (· fits) enough
  | accepted typed fits enough bounds parameters answers =>
    have whole := (forall_complete_iff answers).trans (exists_broken_iff parameters answers).not
    rw [not_or, not_not] at whole
    constructor
    · rintro ⟨_, ⟨⟩, all⟩
      obtain ⟨single, through⟩ := whole.mp all
      exact ⟨typed, (isProper_iff through).mpr ⟨fits, enough, single⟩, through⟩
    · rintro ⟨-, proper, through⟩
      exact ⟨bounds, rfl, whole.mpr ⟨proper.single, through⟩⟩

/-- Which calls are accepted although a parameter has no value or several. -/
theorem broken_iff : (∃ bounds, result = .ok bounds ∧ ∃ b ∈ bounds, b.Broken) ↔
    Typed H env method.parameters ∧ Fits method.parameters call ∧ ¬ Lacks method.parameters call ∧
      (¬ Single method.parameters call ∨ Skips method.parameters call) := by
  cases outcome with
  | endless untyped => exact iff_of_false (by rintro ⟨_, ⟨⟩, _⟩) fun h => untyped h.1
  | refused _ bad => exact iff_of_false (by rintro ⟨_, ⟨⟩, _⟩) fun h => bad.elim (· h.2.1) h.2.2.1
  | accepted typed fits enough bounds parameters answers =>
    rw [← exists_broken_iff parameters answers]
    constructor
    · rintro ⟨_, ⟨⟩, broken⟩
      exact ⟨typed, fits, enough, broken⟩
    · rintro ⟨-, -, -, broken⟩
      exact ⟨bounds, rfl, broken⟩

end Outcome

end Bind

end Binding

/-! ## Rendering -/

namespace Emit

variable {r : Emitter} {isRaw : Bool} {site : CallSite} {b : Bound (Option Expr)}

def givenText (r : Emitter) (isRaw : Bool) (passing : Passing) (e : Option Expr) : Emit String := do
  let text ← argumentText r isRaw e
  if passing = .byValue then pure text else passed passing (placeOf e) text

/-- **The text of the one value that a bound has**, by where the value comes from. -/
def oneText (r : Emitter) (isRaw : Bool) (b : Bound (Option Expr)) : Emit String := do
  match b.source with
  | .argument | .receiver => givenText r isRaw b.passing b.args.head?.join
  | .default i _ => givenText r isRaw b.passing ((← read).world.defaults[i]?)
  | .caller | .constant => b.constant.elim (pure "") (literal · (some b.type))
  | .sentinel => defaultValue (some b.type)

theorem source_of_isActual {s : Source} (actual : s.isActual = true) : s = .argument ∨ s = .receiver := by
  cases s with
  | argument => exact .inl rfl
  | receiver => exact .inr rfl
  | caller | default | constant | sentinel => cases actual

/-- What is given by the call is rendered as it is. -/
theorem argument_of_actual (plain : b.parameter.isVariadic = false) (actual : b.source.isActual = true) :
    argument r isRaw b =
      if b.args.length = 1 then givenText r isRaw b.passing b.args.head?.join
      else throw (.assertion ("parameter " ++ b.parameter.name ++ " bound to " ++ Text.decimal b.args.length ++
        " arguments")) := by
  have source := source_of_isActual actual
  rcases args : b.args with _ | ⟨e, _ | ⟨e', rest⟩⟩
  all_goals
    rcases source with source | source
    all_goals simp [argument, source, boundValues, plain, givenText, args]

theorem argument_of_complete (plain : b.parameter.isVariadic = false) (h : b.Complete site) :
    argument r isRaw b = oneText r isRaw b := by
  cases h with
  | given value args actual =>
    rw [argument_of_actual plain actual, if_pos (by rw [args]; rfl), oneText]
    rcases source_of_isActual actual with source | source
    all_goals rw [source]
  | left args supplied =>
    cases supplied with
    | caller info _ source constant => simp [argument, oneText, source, constant]
    | default i type _ _ source => simp [argument, oneText, source, boundValues, plain, givenText]
    | constant c _ _ source constant => simp [argument, oneText, source, constant]
    | sentinel _ _ _ source => simp [argument, oneText, source]

theorem argument_of_broken (h : b.Broken) :
    argument r isRaw b = throw (.assertion ("parameter " ++ b.parameter.name ++ " bound to " ++
      Text.decimal b.args.length ++ " arguments")) := by
  rw [argument_of_actual h.plain h.actual, if_neg h.count]

end Emit

/-! ## The outcome of a call -/

namespace Binding

open Emit

/-- **What becomes of a call**, for every member, receiver and list of arguments:

* It is accepted with one value for each parameter that is not variadic, which is then rendered, exactly when it is in
  order and does not skip the last parameter.
* It is refused as a call that does not bind exactly when an argument has no parameter, or a parameter has no argument and
  no substitute and does not count as given.
* It is accepted with a parameter that has no value or several, and rendering that ends in an assertion, exactly when it is
  none of the latter but gives two values to one parameter or skips the last one.
* Only a type that cannot be put down leaves anything else. -/
theorem bind_complete_iff (H : Hierarchy) (typeOf : Option Expr → Option Ty) (method : Symbol)
    (receiver : Option (Option Expr)) (args : List (Argument (Option Expr))) (site : CallSite) :
    let ps := method.parameters
    let call := actuals method receiver args
    let typed := Typed H (environment typeOf method receiver) ps
    ((∃ bounds, bind H typeOf method receiver args site = .ok bounds ∧
        ∀ b ∈ bounds, b.parameter.isVariadic = false →
          b.Complete site ∧ ∀ r isRaw, argument r isRaw b = oneText r isRaw b) ↔
      typed ∧ IsProper ps call ∧ ¬ Skips ps call) ∧
    ((∃ which, bind H typeOf method receiver args site =
        .error (.unboundParameter (site.place.getD {}) method.name which)) ↔
      typed ∧ (¬ Fits ps call ∨ Lacks ps call)) ∧
    ((∃ bounds, bind H typeOf method receiver args site = .ok bounds ∧
        ∃ b ∈ bounds, b.Broken ∧ ∀ r isRaw, argument r isRaw b =
          throw (.assertion ("parameter " ++ b.parameter.name ++ " bound to " ++ Text.decimal b.args.length ++
            " arguments"))) ↔
      typed ∧ Fits ps call ∧ ¬ Lacks ps call ∧ (¬ Single ps call ∨ Skips ps call)) ∧
    (bind H typeOf method receiver args site = .error TypeExpr.endless ↔ ¬ typed) := by
  intro ps call typed
  refine ⟨?_, outcome_bind.refused_iff, ?_, outcome_bind.endless_iff⟩
  · rw [← outcome_bind.complete_iff]
    refine exists_congr fun bounds => and_congr_right fun _ => ?_
    refine forall_congr' fun b => forall_congr' fun _ => forall_congr' fun plain => ?_
    exact and_iff_left_of_imp fun complete r isRaw => argument_of_complete plain complete
  · rw [← outcome_bind.broken_iff]
    refine exists_congr fun bounds => and_congr_right fun _ => ?_
    refine exists_congr fun b => and_congr_right fun _ => ?_
    exact and_iff_left_of_imp fun broken r isRaw => argument_of_broken broken

/-- One parameter given by position and by name, and a parameter left out behind a variadic one: both calls are accepted, and
rendering the parameter ends in an assertion. -/
theorem bind_accepts_broken_calls :
    let int := Ty.primitive .int32
    let one : Option Expr := some (.node { place := {} } (.literal ⟨.int, "1"⟩))
    let move : Symbol := { kind := .method, name := "Move", parameters := [{ name := "dx", type := int }] }
    let fill : Symbol :=
      { kind := .method, name := "Fill",
        parameters := [{ name := "items", type := .array int, isVariadic := true }, { name := "count", type := int }] }
    (∃ bounds, bind {} staticOf move none [{ value := one }, { value := one, name := "dx" }] {} = .ok bounds ∧
      ∃ b ∈ bounds, b.Broken ∧ ∀ r isRaw, argument r isRaw b =
        throw (.assertion "parameter dx bound to 2 arguments")) ∧
    (∃ bounds, bind {} staticOf fill none [{ value := one }] {} = .ok bounds ∧
      ∃ b ∈ bounds, b.Broken ∧ ∀ r isRaw, argument r isRaw b =
        throw (.assertion "parameter count bound to 0 arguments")) := by
  intro int one move fill
  refine ⟨⟨_, rfl, _, mem_cons_self, ?_⟩, ⟨_, rfl, _, mem_cons_of_mem _ mem_cons_self, ?_⟩⟩
  · refine ⟨⟨rfl, rfl, by decide⟩, fun r isRaw => (argument_of_broken ⟨rfl, rfl, ?_⟩).trans ?_⟩
    · decide
    · exact congrArg (throw ∘ Fault.assertion) (by decide +kernel)
  · refine ⟨⟨rfl, rfl, by decide⟩, fun r isRaw => (argument_of_broken ⟨rfl, rfl, ?_⟩).trans ?_⟩
    · decide
    · exact congrArg (throw ∘ Fault.assertion) (by decide +kernel)

end Binding

end Polyglot
