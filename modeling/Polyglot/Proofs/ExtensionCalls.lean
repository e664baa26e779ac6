import Polyglot.Emit.Knot
import Polyglot.Proofs.ArgumentConservation
import Polyglot.Proofs.Writing.Basic

/-!
# The two ways to call an extension method

An extension method is called on a receiver, `r.M(x)`, or on its type, `C.M(r, x)`. The receiver is the first argument in both,
and the bound remembers where it came from. From there on the two bindings run side by side (`Twins`), and nothing that renders
a bound asks whether an argument was a receiver.
-/

namespace Polyglot

open List

def Bound.asReceiver {α : Type} (b : Bound α) : Bound α :=
  if b.parameter.isThis && !b.parameter.isVariadic then { b with source := .receiver } else b

namespace Binding

variable {α : Type}

/-! ## Bindings side by side -/

/-- The same bounds, but that the first one of the second is the receiver. Nothing has to be supplied for it. -/
inductive Twins : Progress α → Progress α → Prop
  | intro {b : Bound α} {isFilled : Bool} (bounds : List (Bound α)) (filled : List Bool) (given : b.source = .argument)
      (settled : isFilled = true ∨ b.parameter.isVariadic = true) :
      Twins ⟨b :: bounds, isFilled :: filled⟩ ⟨b.asReceiver :: bounds, isFilled :: filled⟩

@[simp] theorem parameter_asReceiver (b : Bound α) : b.asReceiver.parameter = b.parameter := by
  unfold Bound.asReceiver
  split <;> rfl

variable {b : Bound α}

theorem asReceiver_of_variadic (variadic : b.parameter.isVariadic = true) : b.asReceiver = b := by
  simp [Bound.asReceiver, variadic]

theorem Twins.of_variadic {bounds : List (Bound α)} {filled : List Bool} (variadic : b.parameter.isVariadic = true)
    (given : b.source = .argument) (nonempty : filled ≠ []) : Twins ⟨b :: bounds, filled⟩ ⟨b :: bounds, filled⟩ := by
  obtain ⟨isFilled, filled, rfl⟩ := exists_cons_of_ne_nil nonempty
  have twins : Twins ⟨b :: bounds, isFilled :: filled⟩ _ := .intro bounds filled given (.inr variadic)
  rwa [asReceiver_of_variadic variadic] at twins

theorem giveNamed_asReceiver (b : Bound α) (a : Argument α) : b.asReceiver.giveNamed a = (b.giveNamed a).asReceiver := by
  by_cases isReceiver : (b.parameter.isThis && !b.parameter.isVariadic) = true <;>
    simp only [Bound.asReceiver, Bound.giveNamed, isReceiver, if_true, if_false, Bool.false_eq_true]

theorem give_asReceiver (plain : b.parameter.isVariadic = false) (a : Argument α) :
    b.give a b.parameter.isThis = (b.give a false).asReceiver := by
  cases this : b.parameter.isThis <;> simp [Bound.asReceiver, Bound.give, this, plain]

section Passes

variable {H : Hierarchy} {missing : String → Fault} {p q : Progress α}

/-- Behind the first argument, positions say nothing about the receiver. -/
theorem Twins.positional (twins : Twins p q) (args : List (Argument α)) (pos : Nat) :
    Agree Eq (fun x y => x.1 = y.1 ∧ Twins x.2 y.2) (positional missing false args (pos + 1) p)
      (positional missing true args (pos + 1) q) := by
  induction args generalizing pos p q with
  | nil => exact .ok ⟨rfl, twins⟩
  | cons a args ih =>
    rw [positional, positional]
    by_cases isNamed : a.name ≠ ""
    · rw [if_pos isNamed, if_pos isNamed]
      exact .ok ⟨rfl, twins⟩
    rw [if_neg isNamed, if_neg isNamed]
    cases twins with
    | @intro b isFilled bounds filled given settled =>
      simp only [getElem?_cons_succ]
      cases here : bounds[pos]? with
      | none => exact .error rfl
      | some c =>
        dsimp only
        obtain ⟨inside, -⟩ := List.getElem?_eq_some_iff.mp here
        by_cases variadic : c.parameter.isVariadic = true
        · rw [if_pos variadic, if_pos variadic]
          -- The last bound, which counts as filled now, is behind the first one.
          obtain ⟨last, hlast⟩ : ∃ last, bounds.length = last + 1 := ⟨bounds.length - 1, by omega⟩
          simp only [length_cons, hlast, Nat.add_sub_cancel, set_cons_succ]
          exact .ok ⟨rfl, .intro _ _ given settled⟩
        · rw [if_neg variadic, if_neg variadic]
          simp only [Bool.and_false, Bool.and_true, Nat.add_one_ne_zero, decide_false, set_cons_succ]
          exact ih (.intro _ _ given settled) (pos + 1)

theorem Twins.named (twins : Twins p q) (args : List (Argument α)) :
    Agree Eq Twins (named missing args p) (named missing args q) := by
  induction args generalizing p q with
  | nil => exact .ok twins
  | cons a args ih =>
    rw [named, named]
    cases twins with
    | @intro b isFilled bounds filled given settled =>
      simp only [findIdx?_cons, parameter_asReceiver]
      by_cases first : b.parameter.name = a.name
      · simp only [first, decide_true, if_true, modify_zero_cons, set_cons_zero, giveNamed_asReceiver]
        exact ih (.intro _ _ given (.inl rfl))
      · simp only [first, decide_false, Bool.false_eq_true, if_false]
        cases bounds.findIdx? (·.parameter.name = a.name) with
        | none => exact .error rfl
        | some i => exact ih (.intro _ _ given settled)

/-- What is said of the two bindings in the end. -/
def TwinBounds (bounds bounds' : List (Bound α)) : Prop :=
  ∃ b rest, bounds = b :: rest ∧ bounds' = b.asReceiver :: rest ∧ b.source = .argument

theorem Twins.finish (twins : Twins p q) (typeOf : α → Option Ty) (site : CallSite) :
    Agree Eq TwinBounds (finish H typeOf missing site p.bounds p.filled) (finish H typeOf missing site q.bounds q.filled) := by
  cases twins with
  | @intro b isFilled bounds filled given settled =>
    rw [finish, finish]
    by_cases variadic : b.parameter.isVariadic = true
    · rw [asReceiver_of_variadic variadic, if_pos variadic, pure_bind]
      refine Agree.bind (.same (R := Eq) (fun _ => rfl) fun _ _ => rfl) ?_
      rintro rest _ rfl
      exact .ok ⟨_, rest, rfl, by rw [asReceiver_of_variadic (by exact variadic)], given⟩
    · have marked : isFilled = true := settled.resolve_right variadic
      rw [if_neg variadic, parameter_asReceiver, if_neg variadic, if_pos marked, if_pos marked, pure_bind, pure_bind]
      refine Agree.bind (.same (R := Eq) (fun _ => rfl) fun _ _ => rfl) ?_
      rintro rest _ rfl
      exact .ok ⟨b, rest, rfl, rfl, given⟩

/-- The first argument of an extension method, given by position or by the receiver. -/
theorem positional_first {env : TypeEnv} {parameters : List Parameter} (started : start H env parameters = .ok p) (value : α)
    (args : List (Argument α)) :
    Agree Eq (fun x y => x.1 = y.1 ∧ Twins x.2 y.2) (positional missing false ({ value } :: args) 0 p)
      (positional missing true ({ value } :: args) 0 p) := by
  obtain ⟨bounds, each, started⟩ := bind_eq_ok.mp started
  cases started
  rw [positional, positional]
  cases mapM_eq_ok.mp each with
  | nil => exact .error rfl
  | @cons first b parameters bounds fresh _ =>
    obtain ⟨type, -, fresh⟩ := bind_eq_ok.mp fresh
    cases fresh
    simp only [getElem?_cons_zero]
    by_cases variadic : first.isVariadic = true
    · rw [if_pos variadic, if_pos variadic]
      refine .ok ⟨rfl, .of_variadic variadic rfl ?_⟩
      exact ne_nil_of_length_pos (by simp)
    · have plain : first.isVariadic = false := Bool.not_eq_true _ ▸ variadic
      rw [if_neg variadic, if_neg variadic]
      simp only [Bool.and_false, Bool.and_true, decide_true]
      rw [give_asReceiver plain]
      exact Twins.positional (.intro _ _ rfl (.inl rfl)) args 0

/-- **The receiver is the first argument.** The two bindings fail alike, or they differ in the source of the first bound. -/
theorem bind_receiver {typeOf : α → Option Ty} {method : Symbol} (ext : method.isExtension = true) (receiver : α)
    (args : List (Argument α)) (site : CallSite) :
    Agree Eq TwinBounds (bind H typeOf method none ({ value := receiver } :: args) site)
      (bind H typeOf method (some receiver) args site) := by
  unfold bind
  simp only [ext]
  refine Agree.bind (.same (R := fun p q => p = q ∧ start H [] method.parameters = .ok p) (fun _ => rfl)
    fun _ started => ⟨rfl, started⟩) ?_
  rintro p _ ⟨rfl, started⟩
  refine (positional_first started receiver args).bind ?_
  rintro ⟨rest, p⟩ ⟨_, q⟩ ⟨rfl, twins⟩
  exact (twins.named rest).bind fun _ _ twins => twins.finish typeOf site

end Passes

end Binding

/-! ## Rendering the two calls -/

namespace Emit

open Binding

variable {r : Emitter} {scene : Scene} {s : Symbol}

/-- An argument is rendered alike, whether it is a receiver or not. -/
theorem argument_asReceiver {b : Bound (Option Expr)} (given : b.source = .argument) (isRaw : Bool) :
    argument r isRaw b.asReceiver = argument r isRaw b := by
  unfold Bound.asReceiver
  split
  · simp only [argument, boundValues, given]
    rfl
  · rfl

theorem arguments_apply (receiver : Option (Option Expr)) (args : List (Argument (Option Expr))) (place : Position)
    (sheet : Sheet) : arguments r s receiver args place scene sheet =
      (ofExcept (bind scene.world.hierarchy staticOf s receiver args (.inside sheet.member place)) >>=
        mapM (argument r false)) scene sheet := by
  have here : (read : Emit Scene) scene sheet = (.ok scene, sheet) := rfl
  have site : callSite place scene sheet = (.ok (.inside sheet.member place), sheet) := rfl
  rw [arguments, bound, bind_assoc, bind_ok here, bind_assoc, bind_ok site]

theorem arguments_receiver (ext : s.isExtension = true) (receiver : Option Expr) (args : List (Argument (Option Expr)))
    (place : Position) :
    arguments r s none ({ value := receiver } :: args) place = arguments r s (some receiver) args place := by
  funext scene sheet
  have agree : Agree Eq TwinBounds (bind scene.world.hierarchy staticOf s none ({ value := receiver } :: args) _) _ :=
    bind_receiver ext receiver args (.inside sheet.member place)
  rw [arguments_apply, arguments_apply]
  generalize bind scene.world.hierarchy staticOf s none _ _ = onType at agree ⊢
  generalize bind scene.world.hierarchy staticOf s (some receiver) _ _ = onReceiver at agree ⊢
  cases agree with
  | error same =>
    cases same
    rfl
  | ok twins =>
    obtain ⟨b, rest, rfl, rfl, given⟩ := twins
    show mapM (argument r false) (b :: rest) scene sheet = mapM (argument r false) (b.asReceiver :: rest) scene sheet
    rw [mapM_cons, mapM_cons, argument_asReceiver given]

def extensionCall (s : Symbol) (typeArgs : List Ty) (args : List String) : Emit Rendered := do
  let name ← genericCall (← symbolName s) typeArgs
  let lead := (← typeReference s.container) ++ (← dialect).scope
  pure (.postfixed (lead ++ name ++ "(" ++ Text.join ", " args ++ ")"))

theorem invocation_extension (method : s.kind = .method) (ext : s.isExtension = true)
    (plain : scene.templates.find? s.key scene.target.name = none) (e : Expr) (resolved : e.symbol = some s) (callee : Expr)
    (typeArgs : List Ty) (args : List (Argument Expr)) (sheet : Sheet) : invocation r e callee typeArgs args scene sheet =
      (arguments r s ((calledOn callee).map some) (optional args) e.place >>= extensionCall s typeArgs) scene sheet := by
  have isMethod : e.symbol.filter (fun s => s.kind = .method || s.kind = .operator) = some s := by
    rw [resolved]
    exact Option.filter_some_pos (by simp [method])
  have untemplated : template? s.key scene sheet = (.ok none, sheet) := by
    rw [← plain]
    rfl
  unfold extensionCall
  simp only [invocation, isMethod]
  rw [bind_ok untemplated]
  simp only [ext, Bool.true_or, if_true, pure_bind]

/-- The call of a method on a receiver: `r.M(args)`. -/
def onReceiver (m callee : Mark) (receiver : Expr) (typeArgs : List Ty) (args : List (Argument Expr)) : Expr :=
  .node m (.call (.node callee (.member (some receiver))) typeArgs args)

/-- The call of a method on a type, with the receiver as the first argument: `C.M(r, args)`. -/
def onType (m callee : Mark) (type receiver : Expr) (typeArgs : List Ty) (args : List (Argument Expr)) : Expr :=
  .node m (.call (.node callee (.member (some type))) typeArgs ({ value := receiver } :: args))

/-- **Extension and static syntax are alike.** A method without a template that extends the type of a receiver is called on
the receiver or on its own type, at the same place and with the same arguments. In every scene the two calls are emitted alike:
the result, or the fault, is the same, and so is the sheet with its text and its notes. Their bindings fail alike, or they
differ in the source of the first bound only. -/
theorem extension_syntax_alike (method : s.kind = .method) (ext : s.isExtension = true)
    (plain : scene.templates.find? s.key scene.target.name = none) {m m' callee callee' : Mark} (resolved : m.symbol = some s)
    (resolved' : m'.symbol = some s) (place : m.place = m'.place) {receiver type : Expr}
    (value : receiver.symbol.any (·.kind = .type) = false) (named : type.symbol.any (·.kind = .type) = true)
    (typeArgs : List Ty) (args : List (Argument Expr)) (isStatement : Bool) :
    (∀ sheet, expression r isStatement (onReceiver m callee receiver typeArgs args) scene sheet =
      expression r isStatement (onType m' callee' type receiver typeArgs args) scene sheet) ∧
    ∀ H site, Agree Eq TwinBounds (bind H staticOf s none (optional ({ value := receiver } :: args)) site)
      (bind H staticOf s (some (some receiver)) (optional args) site) := by
  refine ⟨fun sheet => ?_, fun H site => bind_receiver ext (some receiver) (optional args) site⟩
  have onValue : calledOn (.node callee (.member (some receiver))) = some receiver := by
    simp [calledOn, Expr.form, value]
  have onNone : calledOn (.node callee' (.member (some type))) = none := by
    simp [calledOn, Expr.form, named]
  have first := invocation_extension (r := r) method ext plain (onReceiver m callee receiver typeArgs args) resolved
    (.node callee (.member (some receiver))) typeArgs args sheet
  have second := invocation_extension (r := r) method ext plain (onType m' callee' type receiver typeArgs args) resolved'
    (.node callee' (.member (some type))) typeArgs ({ value := receiver } :: args) sheet
  rw [onValue] at first
  rw [onNone] at second
  have samePlace : (onReceiver m callee receiver typeArgs args).place = (onType m' callee' type receiver typeArgs args).place :=
    place
  have sameArguments := arguments_receiver (r := r) ext (some receiver) (optional args)
    (onReceiver m callee receiver typeArgs args).place
  refine first.trans (Eq.trans ?_ second.symm)
  rw [Option.map_some, ← sameArguments, samePlace]
  rfl

/-- The class of the method below. -/
def scalesClass : Ty := .named { kind := .classDecl, space := "", name := "Scales" }

/-- An extension method that changes its receiver and takes any numbers. -/
def scaleMethod : Symbol where
  kind := .method
  name := "Scale"
  container := some scalesClass
  isStatic := true
  isExtension := true
  parameters :=
    [{ name := "self", type := .int, isThis := true, passing := .byRef },
      { name := "by", type := .array .int, isVariadic := true }]

def number (text : String) : Expr := .node { place := {}, static := some .int } (.literal ⟨.int, text⟩)

theorem extension_syntax_alike_scale :
    let called : Mark := { place := {}, symbol := some scaleMethod }
    let self : Expr := .node { place := {}, symbol := some { kind := .local, name := "n", type := some .int } } .identifier
    let scales : Expr := .node { place := {}, symbol := some { kind := .type, name := "Scales" } } .identifier
    let args : List (Argument Expr) := [{ value := number "1" }, { value := number "2" }]
    (∃ sheet, expression (.within 1) false (onReceiver called { place := {} } self [] args) (.bare .csharp)
        (Scene.bare .csharp).blank = (.ok (.postfixed "Scales.Scale(ref n, new int[] \x7b 1, 2 \x7d)"), sheet)) ∧
    (∀ sheet, expression (.within 1) false (onReceiver called { place := {} } self [] args) (.bare .csharp) sheet =
      expression (.within 1) false (onType called { place := {} } scales self [] args) (.bare .csharp) sheet) ∧
    ∀ H site, Agree Eq TwinBounds (bind H staticOf scaleMethod none (optional ({ value := self } :: args)) site)
      (bind H staticOf scaleMethod (some (some self)) (optional args) site) := by
  intro called self scales args
  exact ⟨⟨_, rfl⟩, extension_syntax_alike rfl rfl rfl rfl rfl rfl rfl rfl [] args false⟩

end Emit

end Polyglot
