import Mathlib.Data.List.TakeWhile
import Polyglot.Prelude
import Polyglot.Report
import Polyglot.Proofs.ArgumentConservation
import Polyglot.Proofs.Writing.Basic

/-!
# Argument lists

The arguments of a call are written by position, by name, some collected, some left out. A call of a method or of a constructor
is emitted with one item for each parameter, and each item is the rendering of what is bound to its parameter.

The arguments of a delegate are emitted as they are written. They are what is bound to the parameters of its signature when
each parameter has just the argument in its place, by value; a named argument out of its place goes to a wrong parameter.
-/

namespace Polyglot

open List

namespace Emit

variable {α β : Type} {scene : Scene} {sheet : Sheet} {x : Emit α} {f : α → Emit β}

/-! ## Results -/

/-- On a sheet the emission succeeds with a result. -/
def Gives (scene : Scene) (sheet : Sheet) (x : Emit α) (a : α) : Prop := ∃ after, x scene sheet = (.ok a, after)

/-- In some state of the sheet the emission succeeds with a result. -/
def MayGive (scene : Scene) (x : Emit α) (a : α) : Prop := ∃ sheet, Gives scene sheet x a

namespace Gives

theorem of_bind {b : β} (run : Gives scene sheet (x >>= f) b) : ∃ a, Gives scene sheet x a ∧ MayGive scene (f a) b := by
  obtain ⟨after, run⟩ := run
  obtain ⟨a, inner, first, second⟩ := bind_eq_ok run
  exact ⟨a, ⟨inner, first⟩, inner, after, second⟩

/-- What follows something that is read starts on the same sheet. -/
theorem behind {a : α} {b : β} (read : x scene sheet = (.ok a, sheet)) (run : Gives scene sheet (x >>= f) b) :
    Gives scene sheet (f a) b := by
  obtain ⟨after, run⟩ := run
  rw [bind_ok read] at run
  exact ⟨after, run⟩

/-- What is bound is bound at the place of the call, in the member that the sheet is in. -/
theorem of_bound {method : Symbol} {receiver : Option (Option Expr)} {args : List (Argument (Option Expr))} {place : Position}
    {bounds : List (Bound (Option Expr))} (run : Gives scene sheet (bound method receiver args place) bounds) :
    bind scene.world.hierarchy staticOf method receiver args (.inside sheet.member place) = .ok bounds := by
  obtain ⟨after, run⟩ := run
  change ofExcept (bind scene.world.hierarchy staticOf method receiver args (.inside sheet.member place)) scene sheet = _ at run
  cases bound : bind scene.world.hierarchy staticOf method receiver args (.inside sheet.member place) with
  | error f =>
    rw [bound] at run
    cases run
  | ok made =>
    rw [bound] at run
    cases run
    rfl

end Gives

namespace MayGive

theorem of_bind {b : β} (run : MayGive scene (x >>= f) b) : ∃ a, MayGive scene x a ∧ MayGive scene (f a) b := by
  obtain ⟨sheet, run⟩ := run
  obtain ⟨a, first, second⟩ := run.of_bind
  exact ⟨a, ⟨sheet, first⟩, second⟩

theorem of_pure {a b : α} (run : MayGive scene (pure a) b) : b = a := by
  obtain ⟨before, after, run⟩ := run
  cases run
  rfl

theorem of_map {g : α → β} {b : β} (run : MayGive scene (x >>= fun a => pure (g a)) b) :
    ∃ a, MayGive scene x a ∧ b = g a := by
  obtain ⟨a, first, run⟩ := of_bind run
  exact ⟨a, first, of_pure run⟩

theorem of_mapM {as : List α} {bs : List β} (run : MayGive scene (as.mapM f) bs) :
    Forall₂ (fun a b => MayGive scene (f a) b) as bs := by
  induction as generalizing bs with
  | nil =>
    obtain rfl := of_pure run
    exact .nil
  | cons a as ih =>
    rw [mapM_cons] at run
    obtain ⟨b, first, run⟩ := of_bind run
    obtain ⟨rest, others, rfl⟩ := of_map run
    exact .cons first (ih others)

end MayGive

end Emit

/-! ## Plain calls -/

namespace Binding

variable {α : Type}

/-- **Each parameter has just the argument in its place**, by value. -/
def InPlace (bounds : List (Bound α)) (args : List (Argument α)) : Prop :=
  Forall₂ (fun b a => b.source = .argument ∧ b.args = [a.value] ∧ b.packs = false ∧ b.passing = .byValue) bounds args

/-- Arguments by position and by value, one for each parameter; no parameter is variadic or by reference. -/
structure IsPlain (parameters : List Parameter) (args : List (Argument α)) : Prop where
  unnamed : ∀ a ∈ args, a.name = "" ∧ a.passing = .byValue
  single : ∀ p ∈ parameters, p.isVariadic = false ∧ p.passing = .byValue
  complete : args.length = parameters.length

/-- **Plain arguments are bound in their places.** -/
theorem inPlace_of_isPlain {H : Hierarchy} {typeOf : α → Option Ty} {method : Symbol} {args : List (Argument α)}
    {site : CallSite} {bounds : List (Bound α)} (plain : IsPlain method.parameters args)
    (run : bind H typeOf method none args site = .ok bounds) : InPlace bounds args := by
  have parameters := parameters_of_bind run
  have count : bounds.length = args.length := by rw [plain.complete, ← parameters, length_map]
  have unnamed (a : Argument α) (ha : a ∈ args) : decide (a.name = "") = true := by simpa using (plain.unnamed a ha).1
  have variadicAt : variadicAt method.parameters = args.length := by
    rw [plain.complete]
    exact findIdx_eq_length_of_false fun p hp => (plain.single p hp).1
  refine forall₂_iff_get.mpr ⟨count, fun k inside bounded => ?_⟩
  rw [get_eq_getElem, get_eq_getElem]
  have here := getElem?_eq_getElem inside
  obtain ⟨b, isFilled, touch, made, own, filled⟩ := touched_at run here
  have declared : b.parameter ∈ method.parameters := by
    rw [← parameters, ← touch.parameter]
    exact mem_map_of_mem (mem_of_getElem? here)
  obtain ⟨single, byValue⟩ := plain.single _ declared
  have given : given method.parameters args k = [args[k].value] := by
    rw [given, places, byPosition, takeWhile_eq_self_iff.mpr unnamed, byName, dropWhile_eq_nil_iff.mpr unnamed,
      valuesAt_append, valuesAt_positionPlaces _ (variadicAt ▸ bounded)]
    simp [namePlaces, valuesAt, bounded]
  have isFilled : isFilled = true := (filled single).mpr (.inl (given ▸ cons_ne_nil _ _))
  refine ⟨?_, touch.args.trans (own.trans given), ?_, ?_⟩
  · rw [touch.source (.inr isFilled)]
    simpa using made.source
  · rw [touch.packs, touch.parameter, single]
    exact made.loose
  · rw [touch.passing, made.passing fun a ha => (plain.unnamed a ha).2, byValue]

end Binding

namespace Emit

variable {r : Emitter} {scene : Scene}

/-! ## Argument lists -/

/-- The text ends in a list of items in parentheses. -/
def EndsInArguments (text : String) (items : List String) : Prop :=
  ∃ head, text = head ++ "(" ++ Text.join ", " items ++ ")"

/-- The item is what emission may give for the expression. -/
def IsRendering (r : Emitter) (scene : Scene) (e : Option Expr) (item : String) : Prop :=
  ∃ x, MayGive scene (r.value e) x ∧ item = x.text

/-- **The items of an argument list are what is bound**: there is one for each parameter, and it is the rendering of what is
bound to the parameter. -/
def PassesBound (r : Emitter) (scene : Scene) (method : Symbol) (receiver : Option (Option Expr))
    (args : List (Argument (Option Expr))) (site : CallSite) (items : List String) : Prop :=
  ∃ bounds, bind scene.world.hierarchy staticOf method receiver args site = .ok bounds ∧ bounds.map (·.parameter) = method.parameters ∧
    Forall₂ (fun b item => MayGive scene (argument r false b) item) bounds items

variable {sheet : Sheet} {args : List (Argument (Option Expr))} {items : List String} {b : Bound (Option Expr)} {method : Symbol}

theorem passesBound_arguments {receiver : Option (Option Expr)} {place : Position}
    (run : Gives scene sheet (arguments r method receiver args place) items) :
    PassesBound r scene method receiver args (.inside sheet.member place) items := by
  obtain ⟨bounds, bound, rendered⟩ := run.of_bind
  exact ⟨bounds, bound.of_bound, (Binding.bounds_of_bind bound.of_bound).1, rendered.of_mapM⟩

theorem isRendering_plainArguments (run : MayGive scene (plainArguments r args) items) :
    Forall₂ (fun a item => IsRendering r scene a.value item) args items := by
  have each := run.of_mapM
  rw [forall₂_map_left_iff] at each
  exact each.imp fun a item run => run.of_map

/-- Where a parameter has just the argument in its place, the argument is passed as it is. -/
theorem argument_eq_value {e : Option Expr} (source : b.source = .argument) (args : b.args = [e]) (packs : b.packs = false)
    (passing : b.passing = .byValue) : argument r false b = r.value e >>= fun x => pure x.text := by
  have text : argumentText r false e = r.value e >>= fun x => pure x.text := rfl
  simp only [argument, source, boundValues, args, packs]
  split
  · simp only [mapM_cons, bind_assoc, pure_bind]
    exact (bind_pure _).trans text
  · simp [text]

theorem passesBound_of_inPlace {bounds : List (Bound (Option Expr))} {site : CallSite}
    (binds : bind scene.world.hierarchy staticOf method none args site = .ok bounds)
    (inPlace : Binding.InPlace bounds args) (written : Forall₂ (fun a item => IsRendering r scene a.value item) args items) :
    PassesBound r scene method none args site items := by
  refine ⟨bounds, binds, (Binding.bounds_of_bind binds).1, ?_⟩
  clear binds
  induction inPlace generalizing items with
  | nil =>
    cases written
    exact .nil
  | cons here _ ih =>
    obtain ⟨source, args, packs, passing⟩ := here
    cases written with
    | cons rendered written =>
      obtain ⟨x, ⟨before, after, run⟩, rfl⟩ := rendered
      refine .cons ⟨before, after, ?_⟩ (ih written)
      rw [argument_eq_value source args packs passing]
      exact bind_ok run

/-- What is collected for a variadic parameter is passed as one array. -/
theorem newArray_of_packs {item : String} (source : b.source = .argument) (variadic : b.parameter.isVariadic = true)
    (packs : b.packs = true) (run : MayGive scene (argument r false b) item) :
    ∃ items array, Forall₂ (IsRendering r scene) b.args items ∧
      MayGive scene (newArray (some b.element) (.items items)) array ∧ item = array.text := by
  simp only [argument, source, boundValues, pure_bind, variadic, packs] at run
  obtain ⟨items, rendered, run⟩ := run.of_bind
  obtain ⟨array, made, run⟩ := run.of_bind
  exact ⟨items, array, rendered.of_mapM.imp fun e item run => run.of_map, made, run.of_pure⟩

/-! ## Calls -/

section Calls

variable {e callee : Expr} {typeArgs : List Ty} {args : List (Argument Expr)} {s : Symbol} {x : Rendered} {t : Ty}

theorem MayGive.of_symbolName {name : String} (run : MayGive scene (symbolName s) name) : name = scene.symbolName s := by
  obtain ⟨before, after, run⟩ := run
  cases run
  rfl

/-- What stands before the name in a call of a method: the type that it belongs to, or its receiver. -/
def callLead (r : Emitter) (callee : Expr) (s : Symbol) : Emit String := do
  if s.isExtension || s.isStatic then do pure ((← typeReference s.container) ++ (← dialect).scope)
  else memberLead r (calledOn callee) s

/-- **The parts of a call of a method.** -/
theorem Gives.of_invocation (symbol : e.symbol = some s) (isMethod : s.kind = .method ∨ s.kind = .operator)
    (plain : scene.templates.find? s.key scene.target.name = none)
    (run : Gives scene sheet (invocation r e callee typeArgs args) x) :
    ∃ lead name items, MayGive scene (callLead r callee s) lead ∧
      MayGive scene (genericCall (scene.symbolName s) typeArgs) name ∧
      Gives scene sheet (arguments r s ((calledOn callee).map some) (optional args) e.place) items ∧
      x = .postfixed (lead ++ name ++ "(" ++ Text.join ", " items ++ ")") := by
  have found : e.symbol.filter (fun s => s.kind = .method || s.kind = .operator) = some s := by
    rw [symbol]
    exact Option.filter_some_pos (by simpa using isMethod)
  simp only [invocation, found] at run
  replace run := run.behind rfl
  rw [plain] at run
  obtain ⟨items, bound, run⟩ := run.of_bind
  obtain ⟨name, named, run⟩ := run.of_bind
  rw [named.of_symbolName] at run
  obtain ⟨generic, called, run⟩ := run.of_bind
  have written : MayGive scene (do
      let lead ← callLead r callee s
      pure (.postfixed (lead ++ generic ++ "(" ++ Text.join ", " items ++ ")"))) x := by
    unfold callLead
    split at run
    · next belongs =>
      rw [if_pos belongs]
      simpa only [bind_assoc] using run
    · next apart =>
      rw [if_neg apart]
      exact run
  obtain ⟨lead, led, rfl⟩ := written.of_map
  exact ⟨lead, generic, items, led, called, bound, rfl⟩

theorem passesBound_invocation (symbol : e.symbol = some s) (isMethod : s.kind = .method ∨ s.kind = .operator)
    (plain : scene.templates.find? s.key scene.target.name = none)
    (run : Gives scene sheet (invocation r e callee typeArgs args) x) : ∃ items, EndsInArguments x.text items ∧
      PassesBound r scene s ((calledOn callee).map some) (optional args) (.inside sheet.member e.place) items := by
  obtain ⟨lead, name, items, _, _, bound, rfl⟩ := run.of_invocation symbol isMethod plain
  exact ⟨items, ⟨lead ++ name, rfl⟩, passesBound_arguments bound⟩

theorem endsInArguments_append (head : String) (items : List String) :
    EndsInArguments (head ++ ("(" ++ Text.join ", " items ++ ")")) items :=
  ⟨head, by simp only [String.append_assoc]⟩

theorem endsInArguments_delegateCall {on : Rendered} (run : MayGive scene (delegateCall on items) x) :
    EndsInArguments x.text items := by
  obtain ⟨t, _, run⟩ := run.of_bind
  cases t with
  | java | rust | cpp | csharp | typescript =>
    obtain rfl := run.of_pure
    exact endsInArguments_append _ items

theorem endsInArguments_newObject {constructor : Option Symbol} (run : MayGive scene (newObject t constructor items) x) :
    EndsInArguments x.text items := by
  obtain ⟨name, _, run⟩ := run.of_bind
  obtain ⟨target, _, run⟩ := run.of_bind
  cases target with
  | cpp =>
    obtain rfl := run.of_pure
    cases value : t.isValueType with
    | true => simpa [Rendered.postfixed] using endsInArguments_append name items
    | false => simpa [Rendered.postfixed] using endsInArguments_append ("std::make_shared<" ++ name ++ ">") items
  | rust =>
    dsimp only at run
    split at run
    case' h_1 => obtain ⟨_, _, run⟩ := run.of_bind
    all_goals
      obtain rfl := run.of_pure
      exact endsInArguments_append _ items
  | java | csharp | typescript =>
    obtain rfl := run.of_pure
    exact endsInArguments_append _ items

/-- **The parts of a call of a delegate.** -/
theorem MayGive.of_delegate (noMethod : ∀ s, e.symbol = some s → s.kind ≠ .method ∧ s.kind ≠ .operator)
    (run : MayGive scene (invocation r e callee typeArgs args) x) :
    ∃ on items, MayGive scene (plainArguments r (optional args)) items ∧ MayGive scene (delegateCall on items) x := by
  have none : e.symbol.filter (fun s => s.kind = .method || s.kind = .operator) = none := by
    rw [Option.filter_eq_none_iff]
    intro s symbol
    simpa using noMethod s symbol
  simp only [invocation, none] at run
  split at run
  case' isTrue => obtain ⟨_, _, run⟩ := run.of_bind
  all_goals
    obtain ⟨on, _, run⟩ := run.of_bind
    obtain ⟨items, written, called⟩ := run.of_bind
    exact ⟨on, items, written, called⟩

theorem isRendering_invocation (noMethod : ∀ s, e.symbol = some s → s.kind ≠ .method ∧ s.kind ≠ .operator)
    (run : MayGive scene (invocation r e callee typeArgs args) x) : ∃ items, EndsInArguments x.text items ∧
      Forall₂ (fun a item => IsRendering r scene a.value item) (optional args) items := by
  obtain ⟨on, items, written, called⟩ := MayGive.of_delegate noMethod run
  exact ⟨items, endsInArguments_delegateCall called, isRendering_plainArguments written⟩

theorem passesBound_created (symbol : e.symbol = some s)
    (plain : scene.templates.find? s.key scene.target.name = none) (run : Gives scene sheet (created r e t args) x) :
    ∃ items, EndsInArguments x.text items ∧ PassesBound r scene s none (optional args) (.inside sheet.member e.place) items := by
  simp only [created, symbol] at run
  replace run := run.behind rfl
  rw [plain] at run
  obtain ⟨items, bound, run⟩ := run.of_bind
  exact ⟨items, endsInArguments_newObject run, passesBound_arguments bound⟩

theorem passesBound_chainCall {call : Bool × List String} (form : e.form = .call callee typeArgs args)
    (symbol : e.symbol = some s) (run : Gives scene sheet (chainCall r e) call) :
    PassesBound r scene s none (optional args) (.inside sheet.member e.place) call.2 := by
  simp only [chainCall, form, symbol] at run
  obtain ⟨items, bound, run⟩ := run.of_bind
  obtain rfl := run.of_pure
  exact passesBound_arguments bound

end Calls

/-- **The arguments of calls are passed in the order of the parameters.** A call of a method or of a constructor has one item
for each parameter, which is the rendering of what is bound to it; what is collected for a variadic parameter is one array. A
delegate is called with its arguments as they are written, and these are what is bound to the parameters of its signature when
each parameter has just the argument in its place, as it has when all arguments are plain. -/
theorem calls_pass_bound (r : Emitter) (scene : Scene) (sheet : Sheet) :
    (∀ isStatement e callee typeArgs args s x, e.form = .call callee typeArgs args → e.symbol = some s →
      (s.kind = .method ∨ s.kind = .operator) → scene.templates.find? s.key scene.target.name = none →
      Gives scene sheet (expression r isStatement e) x →
        ∃ items, EndsInArguments x.text items ∧
          PassesBound r scene s ((calledOn callee).map some) (optional args) (.inside sheet.member e.place) items) ∧
    (∀ e t args s x, e.symbol = some s → scene.templates.find? s.key scene.target.name = none →
      Gives scene sheet (created r e t args) x →
        ∃ items, EndsInArguments x.text items ∧ PassesBound r scene s none (optional args) (.inside sheet.member e.place) items) ∧
    (∀ e callee typeArgs args s call, e.form = .call callee typeArgs args → e.symbol = some s →
      Gives scene sheet (chainCall r e) call → PassesBound r scene s none (optional args) (.inside sheet.member e.place) call.2) ∧
    (∀ b item, b.source = .argument → b.parameter.isVariadic = true → b.packs = true →
      MayGive scene (argument r false b) item →
        ∃ items array, List.Forall₂ (IsRendering r scene) b.args items ∧
          MayGive scene (newArray (some b.element) (.items items)) array ∧ item = array.text) ∧
    ∀ isStatement e callee typeArgs args x, e.form = .call callee typeArgs args →
      (∀ s, e.symbol = some s → s.kind ≠ .method ∧ s.kind ≠ .operator) → MayGive scene (expression r isStatement e) x →
        ∃ items, EndsInArguments x.text items ∧
          List.Forall₂ (fun a item => IsRendering r scene a.value item) (optional args) items ∧
          ∀ invoke bounds, bind scene.world.hierarchy staticOf invoke none (optional args) (.inside sheet.member e.place) = .ok bounds →
            Binding.InPlace bounds (optional args) ∨ Binding.IsPlain invoke.parameters (optional args) →
              PassesBound r scene invoke none (optional args) (.inside sheet.member e.place) items := by
  refine ⟨?_, ?_, ?_, ?_, ?_⟩
  · intro isStatement e callee typeArgs args s x form symbol isMethod plain run
    rw [expression, form] at run
    exact passesBound_invocation symbol isMethod plain run
  · intro e t args s x symbol plain run
    exact passesBound_created symbol plain run
  · intro e callee typeArgs args s call form symbol run
    exact passesBound_chainCall form symbol run
  · intro b item source variadic packs run
    exact newArray_of_packs source variadic packs run
  · intro isStatement e callee typeArgs args x form noMethod run
    rw [expression, form] at run
    obtain ⟨items, ends, written⟩ := isRendering_invocation noMethod run
    refine ⟨items, ends, written, fun invoke bounds binds ordered => passesBound_of_inPlace binds ?_ written⟩
    exact ordered.elim id fun plain => Binding.inPlace_of_isPlain plain binds

/-- Two numbers, with the names of their parameters. -/
def twoNumbers (first second : String) : List (Argument Expr) :=
  [{ value := .node { place := {} } (.literal ⟨.int, "1"⟩), name := first },
    { value := .node { place := {} } (.literal ⟨.int, "2"⟩), name := second }]

def pickSignature : Symbol :=
  { kind := .method, name := "Pick", parameters := [{ name := "first", type := .int }, { name := "second", type := .int }] }

def localPick : Expr := .node { place := {}, symbol := some { kind := .local, name := "pick" } } .identifier

/-- A method that is called with swapped names gets each number in its place, and so does a delegate that is called without
names. -/
theorem calls_pass_bound_pick :
    let method : Expr := .node { place := {}, symbol := some pickSignature } (.call localPick [] (twoNumbers "second" "first"))
    let delegate : Expr := .node { place := {}, symbol := localPick.symbol } (.call localPick [] (twoNumbers "" ""))
    (MayGive (.bare .csharp) (expression (.within 2) false method) (.postfixed "this.Pick(2, 1)") ∧
      ∃ items, EndsInArguments "this.Pick(2, 1)" items ∧
        PassesBound (.within 2) (.bare .csharp) pickSignature none (optional (twoNumbers "second" "first")) { place := some {} }
          items) ∧
    MayGive (.bare .csharp) (expression (.within 2) false delegate) (.postfixed "pick(1, 2)") ∧
      ∃ items, EndsInArguments "pick(1, 2)" items ∧
        PassesBound (.within 2) (.bare .csharp) pickSignature none (optional (twoNumbers "" "")) { place := some {} } items := by
  intro method delegate
  have law := calls_pass_bound (.within 2) (.bare .csharp) (Scene.bare .csharp).blank
  have called : Gives (.bare .csharp) (Scene.bare .csharp).blank (expression (.within 2) false method)
      (.postfixed "this.Pick(2, 1)") := ⟨_, rfl⟩
  have invoked : MayGive (.bare .csharp) (expression (.within 2) false delegate) (.postfixed "pick(1, 2)") :=
    ⟨(Scene.bare .csharp).blank, _, rfl⟩
  have noMethod (s : Symbol) (symbol : delegate.symbol = some s) : s.kind ≠ .method ∧ s.kind ≠ .operator := by
    obtain rfl := Option.some.inj symbol
    decide
  have plain : Binding.IsPlain pickSignature.parameters (optional (twoNumbers "" "")) :=
    ⟨by simp [optional, twoNumbers], by simp [pickSignature], rfl⟩
  obtain ⟨items, ends, _, bound⟩ := law.2.2.2.2 false delegate _ _ _ _ rfl noMethod invoked
  exact ⟨⟨⟨_, called⟩, law.1 false method _ _ _ _ _ rfl rfl (.inl rfl) rfl called⟩, invoked, items, ends,
    bound pickSignature _ rfl (.inr plain)⟩

end Emit

namespace Compilation

/-- The constants that the parameters of a delegate get in a call, one after the other. -/
def delegateConstants (w : World) : Node → List (Option Constant)
  | .expr e =>
    match e.form with
    | .call callee _ args =>
      match w.invoke? callee.static with
      | some invoke =>
        ((bind w.hierarchy staticOf invoke none (Emit.optional args) { place := some e.place }).toOption.getD []).flatMap
          (·.args.map Emit.constantOf?)
      | none => []
    | _ => []
  | .stmt _ => []

def pickDraft : TypeDraft :=
  { kind := "delegate", name := "N.Pick"
    invoke := some { returns := "int"
                     parameters := [some { name := "first", type := "int" }, some { name := "second", type := "int" }] } }

/-- A class that calls the delegate by name: `pick(second: 1, first: 2)`. -/
def pickerDraft : TypeDraft :=
  { kind := "class", name := "N.A"
    members := [
      some { kind := "method", name := "Run", returns := "int", parameters := [some { name := "pick", type := "N.Pick" }]
             body := some { kind := "return"
                            value := some { kind := "invocation"
                                            target := some { kind := "identifier", name := "pick" }
                                            args := [some { kind := "literal", argName := "second"
                                                            literal := some (.scalar ⟨1, 1⟩ .int "1") },
                                              some { kind := "literal", argName := "first"
                                                     literal := some (.scalar ⟨1, 1⟩ .int "2") }] } } }] }

/-- Emission for C# and TypeScript, without templates. -/
def withoutTemplates : Options := { targets := [.csharp, .typescript], templates := {} }

def pickerFiles : List String :=
  ["namespace N;\n\npublic class A\n\x7b\n    private int Run(Pick pick)\n    \x7b\n        return pick(1, 2);\n    \x7d\n\x7d\n",
    "import type \x7b Pick \x7d from \"./Pick\";\n\nexport class A \x7b\n  private run(pick: Pick): number \x7b\n" ++
      "    return pick(1, 2);\n  \x7d\n\x7d\n"]

/-- **Delegates are called with their arguments as they are written**: the first parameter is bound to 2 and the second one to
1, and the call passes 1 and 2. -/
theorem delegate_called_as_written : ∃ c d,
    ofDocument Prelude.types "" { types := [some pickDraft, some pickerDraft] } = .ok c ∧ d ∈ c.types ∧
    ((d.members.flatMap Member.trees).flatMap Node.preorder).flatMap (delegateConstants c.world) =
      [some ⟨.int, "2"⟩, some ⟨.int, "1"⟩] ∧
    (withoutTemplates.targets.flatMap fun t => (emitUnit withoutTemplates c t d).outputs.map (·.text)) = pickerFiles :=
  exists_mem_ok_of_decide (by decide +kernel)

end Compilation

end Polyglot
