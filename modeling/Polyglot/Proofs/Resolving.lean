import Polyglot.Proofs.Basic
import Polyglot.Resolve.Stmt

/-!
# Runs of resolution

What a run of resolution that succeeds did, one step after the other: the names that it declared, which end with the frame
that they are declared in, and properties of what is resolved. A lambda is taken by its parts: its parameters, its return
type, which is in force for its body only, and its body.
-/

namespace Polyglot

open List

/-! ## The names of a level -/

mutual

/-- **The names that a draft declares on its own level**, in order: locals, and patterns in conditions and values, but nothing
that stands in a block, a branch, the body of a loop, a handler or a lambda. -/
def Draft.declared : Draft → List String
  | { kind, name, type, target, left, right, args, elements, cond, yes, no, value, .. } =>
    match NodeKind.ofText? kind with
    | some .member | some .unary | some .paren | some .cast | some .as | some .default | some .typeOf => declaredOpt target
    | some .is => declaredOpt target ++ if type ≠ "" ∧ name ≠ "" then [name] else []
    | some .invocation => declaredAll args ++ declaredOpt target
    | some .creation | some .arrayCreation => declaredAll args ++ declaredAll elements
    | some .initializer => declaredAll elements
    | some .anonymous => declaredRight elements
    | some .binary | some .assign => declaredOpt left ++ declaredOpt right
    | some .conditional => declaredOpt cond ++ (declaredOpt yes ++ declaredOpt no)
    | some .index => declaredOpt target ++ declaredAll args
    | some .expr | some .returns | some .throws | some .yields | some .foreach => declaredOpt value
    | some .local => declaredOpt value ++ [name]
    | some .ifElse | some .whileLoop => declaredOpt cond
    | _ => []

/-- The names that a draft declares, if there is one. -/
def declaredOpt : Option Draft → List String
  | none => []
  | some d => d.declared

def declaredAll : List (Option Draft) → List String
  | [] => []
  | d :: ds => declaredOpt d ++ declaredAll ds

/-- The names that the values of the members of an anonymous object declare. What stands left of a value is its name. -/
def declaredRight : List (Option Draft) → List String
  | [] => []
  | none :: ds => declaredRight ds
  | some { right, .. } :: ds => declaredOpt right ++ declaredRight ds

end

theorem declaredAll_eq (ds : List (Option Draft)) : declaredAll ds = ds.flatMap declaredOpt := by
  induction ds with
  | nil => rfl
  | cons d ds ih => rw [declaredAll, ih, flatMap_cons]

namespace Draft

variable {d : Draft}

theorem dotted_of_identifier (isName : d.kind = "identifier") : d.dotted?.isSome := by
  obtain ⟨⟩ := d
  cases isName
  rfl

theorem declared_lambda (isLambda : d.kind = "lambda") : d.declared = [] := by
  obtain ⟨⟩ := d
  cases isLambda
  rfl

theorem declared_block (isBlock : d.kind = "block") : d.declared = [] := by
  obtain ⟨⟩ := d
  cases isBlock
  rfl

theorem declared_of_dotted : (d : Draft) → d.dotted?.isSome → d.declared = []
  | { kind, target, .. }, dotted => by
    rw [dotted?] at dotted
    split at dotted
    · next isName =>
      cases isName
      rfl
    · split at dotted
      · next isMember =>
        cases isMember
        cases target with
        | none => rfl
        | some t =>
          refine declared_of_dotted t ?_
          simpa [dottedTarget?] using dotted
      · cases dotted

end Draft

/-! ## Declarations of a run -/

attribute [ext] Locals

namespace Locals

variable {l : Locals}

theorem foldl_declare {top : List (String × Symbol)} {below : List (List (String × Symbol))} (h : l.frames = top :: below)
    (symbols : List Symbol) :
    symbols.foldl declare l = { l with frames := ((symbols.reverse.map fun s => (s.name, s)) ++ top) :: below } := by
  induction symbols generalizing l top with
  | nil => simp [← h]
  | cons s symbols ih =>
    have here : l.declare s = { l with frames := ((s.name, s) :: top) :: below } := by rw [declare, h]
    rw [foldl_cons, here, ih rfl]
    simp

theorem returns_declare (s : Symbol) : (l.declare s).returns = l.returns := by
  rw [declare]
  split <;> rfl

variable {l' : Locals}

theorem frames_declare (same : l'.frames = l.frames) (s : Symbol) : (l'.declare s).frames = (l.declare s).frames := by
  rw [declare, declare, same]
  split <;> rfl

theorem returns_foldl_declare (symbols : List Symbol) : (symbols.foldl declare l).returns = l.returns := by
  induction symbols generalizing l with
  | nil => rfl
  | cons s symbols ih => rw [foldl_cons, ih, returns_declare]

/-- The frames after some declarations do not depend on what is returned. -/
theorem frames_foldl_declare (same : l'.frames = l.frames) (symbols : List Symbol) :
    (symbols.foldl declare l').frames = (symbols.foldl declare l).frames := by
  induction symbols generalizing l l' with
  | nil => exact same
  | cons s symbols ih => exact ih (frames_declare same s)

end Locals

namespace Resolve

variable {α β : Type} {names more : List String} {P : α → Prop} {Q : β → Prop}

theorem bind_eq_ok {x : Resolve α} {f : α → Resolve β} {here : Surroundings} {l l'' : Locals} {b : β} :
    (x >>= f) here l = .ok (b, l'') ↔ ∃ a l', x here l = .ok (a, l') ∧ f a here l' = .ok (b, l'') := by
  show (x here l >>= fun p => f p.1 here p.2) = .ok (b, l'') ↔ _
  rw [Polyglot.bind_eq_ok]
  exact Prod.exists

/-- What leaves the locals alone. -/
class Steady (x : Resolve α) : Prop where
  same : ∀ {here l a l'}, x here l = .ok (a, l') → l' = l

namespace Steady

instance (a : α) : Steady (pure a : Resolve α) where
  same run := by
    cases run
    rfl

instance : Steady (read : Resolve Surroundings) where
  same run := by
    cases run
    rfl

instance : Steady (get : Resolve Locals) where
  same run := by
    cases run
    rfl

instance (x : Except Fault α) : Steady (liftM x : Resolve α) where
  same run := by
    cases x with
    | error _ => cases run
    | ok _ =>
      cases run
      rfl

instance (line : Int) (p : Problem) : Steady (fail line p : Resolve α) where
  same run := by cases run

theorem bind {x : Resolve α} {f : α → Resolve β} [Steady x] (next : ∀ a, Steady (f a)) : Steady (x >>= f) where
  same run := by
    obtain ⟨a, l', first, rest⟩ := bind_eq_ok.mp run
    exact ((next a).same rest).trans (same first)

instance (x : Resolve α) (f : α → Resolve β) [Steady x] [∀ a, Steady (f a)] : Steady (x >>= f) := bind inferInstance

instance (c : Prop) [Decidable c] (x y : Resolve α) [Steady x] [Steady y] : Steady (if c then x else y) := by
  split <;> infer_instance

instance (f : α → Resolve β) [∀ a, Steady (f a)] (l : List α) : Steady (l.mapM f) := by
  induction l with
  | nil => exact inferInstanceAs (Steady (pure []))
  | cons a l ih =>
    rw [mapM_cons]
    infer_instance

end Steady

instance : Steady world := inferInstanceAs (Steady (read >>= fun _ => pure _))

instance (name : String) : Steady (local? name) := inferInstanceAs (Steady (get >>= fun _ => pure _))

instance (text : String) (line : Int) : Steady (readType text line) := inferInstanceAs (Steady (read >>= fun _ => liftM _))

theorem Steady.givenType (text : String) (line : Int) {f : Option Ty → Resolve β} (next : ∀ t, Steady (f t)) :
    Steady (if text = "" then (pure none >>= f) else (readType text line >>= fun t => pure (some t) >>= f)) := by
  infer_instance

instance (env : TypeEnv) (t : Ty) : Steady (put env t) := inferInstanceAs (Steady (world >>= fun _ => liftM _))

instance (env : TypeEnv) (t : Option Ty) : Steady (putOpt env t) := by
  cases t with
  | none => exact inferInstanceAs (Steady (pure none))
  | some t => exact inferInstanceAs (Steady (put env t >>= fun _ => pure _))

instance (d : Draft) : Steady (markOf d) := inferInstanceAs (Steady (world >>= fun _ => pure _))

instance (name : String) : Steady (typeNamed? name) := by
  refine .bind fun here => ?_
  split
  · infer_instance
  · split <;> infer_instance

def returning (type : Resolve (Option Ty)) (x : Option Ty → Resolve α) : Resolve α := do
  let outer := (← get).returns
  let returns ← type
  modify ({ · with returns })
  let a ← x returns
  modify ({ · with returns := outer })
  pure a

/-- **Exactly the given names are declared**, in order, the locals are left alone otherwise, and what comes out has a
property. -/
def Declares (names : List String) (P : α → Prop) (x : Resolve α) : Prop :=
  ∀ here l a l', x here l = .ok (a, l') →
    P a ∧ ∃ symbols : List Symbol, symbols.map (·.name) = names ∧ l' = symbols.foldl Locals.declare l

namespace Declares

variable {f : α → Resolve β} {x y : Resolve α} {c : Prop} {R : α → β → Prop}

theorem steady [Steady x] (each : ∀ here l a l', x here l = .ok (a, l') → P a) : Declares [] P x :=
  fun here l a l' run => ⟨each here l a l' run, [], rfl, Steady.same run⟩

theorem pure {a : α} (h : P a) : Declares [] P (Pure.pure a) := by
  refine steady fun here l b l' run => ?_
  cases run
  exact h

theorem lift (x : Except Fault α) : Declares [] (x = .ok ·) (liftM x : Resolve α) := by
  refine steady fun here l a l' run => ?_
  cases x with
  | error _ => cases run
  | ok _ =>
    cases run
    rfl

theorem declare (s : Symbol) : Declares [s.name] (fun _ => True) (Resolve.declare s) := by
  intro here l a l' run
  cases run
  exact ⟨trivial, [s], rfl, rfl⟩

theorem bind (first : Declares names P x) (next : ∀ a, P a → Declares more Q (f a)) : Declares (names ++ more) Q (x >>= f) := by
  intro here l b l'' run
  obtain ⟨a, l', ran, run⟩ := bind_eq_ok.mp run
  obtain ⟨given, symbols, rfl, rfl⟩ := first here l a l' ran
  obtain ⟨found, others, rfl, rfl⟩ := next a given here _ b l'' run
  exact ⟨found, symbols ++ others, map_append, foldl_append.symm⟩

/-- What declares nothing may stand before anything. -/
theorem after (first : Declares [] P x) (next : ∀ a, P a → Declares names Q (f a)) :
    Declares names Q (x >>= f) := bind first next

/-- Whatever a step gives that leaves the locals alone. -/
theorem behind [Steady x] (next : ∀ a, Declares names Q (f a)) : Declares names Q (x >>= f) :=
  after (P := fun _ => True) (steady fun _ _ _ _ _ => trivial) fun a _ => next a

/-- What declares nothing may stand behind anything. -/
theorem before (first : Declares names P x) (next : ∀ a, P a → Declares [] Q (f a)) :
    Declares names Q (x >>= f) := append_nil names ▸ bind first next

theorem mono {P' : α → Prop} (h : Declares names P x) (weaker : ∀ a, P a → P' a) : Declares names P' x :=
  fun here l a l' run => (h here l a l' run).imp_left (weaker a)

theorem ite [Decidable c] (yes : c → Declares names P x) (no : ¬ c → Declares names P y) :
    Declares names P (if c then x else y) := by
  split
  · next h => exact yes h
  · next h => exact no h

/-- Of two things that declare nothing either may stand before anything. -/
theorem either [Decidable c] (yes : c → Declares [] P x) (no : ¬ c → Declares [] P y)
    (next : ∀ a, P a → Declares names Q (f a)) : Declares names Q (if c then x >>= f else y >>= f) :=
  ite (fun h => (yes h).after next) fun h => (no h).after next

theorem fail (line : Int) (p : Problem) : Declares names P (Resolve.fail line p) := by
  intro here l a l' run
  cases run

theorem crash : Declares names P Resolve.crash := by
  intro here l a l' run
  cases run

/-- **What is declared inside a frame of its own ends with it.** -/
theorem nested (inside : Declares names P x) : Declares [] P (Resolve.nested x) := by
  intro here l a l' run
  obtain ⟨-, -, ⟨⟩, run⟩ := bind_eq_ok.mp run
  obtain ⟨a, l', ran, run⟩ := bind_eq_ok.mp run
  obtain ⟨given, symbols, -, rfl⟩ := inside here _ a l' ran
  cases run
  refine ⟨given, [], rfl, ?_⟩
  rw [Locals.foldl_declare rfl]
  rfl

/-- A type that may be given is read before anything. -/
theorem givenType (text : String) (line : Int) {f : Option Ty → Resolve β}
    (next : ∀ t : Option Ty, (t = none ↔ text = "") → Declares names Q (f t)) :
    Declares names Q (if text = "" then (Pure.pure none >>= f) else
      (readType text line >>= fun t => Pure.pure (some t) >>= f)) :=
  ite (fun missing => after (pure (P := (· = none)) rfl) fun t none => next t (by simp [none, missing]))
    fun given => behind fun t => after (pure (P := (· = some t)) rfl) fun u same => next u (by simp [same, given])

theorem mapM {g : α → List String} (each : ∀ a, Declares (g a) (R a) (f a)) (l : List α) :
    Declares (l.flatMap g) (Forall₂ R l) (l.mapM f) := by
  induction l with
  | nil => exact pure .nil
  | cons a l ih =>
    rw [mapM_cons]
    exact (each a).bind fun b here => ih.before fun bs rest => pure (.cons here rest)

theorem each {f : α → Resolve β} (each : ∀ a, Declares [] (R a) (f a)) (l : List α) :
    Declares [] (Forall₂ R l) (l.mapM f) := by
  have none : l.flatMap (fun _ => ([] : List String)) = [] := flatMap_eq_nil_iff.mpr fun _ _ => rfl
  exact none ▸ mapM each l

theorem returning {type : Resolve (Option Ty)} [Steady type] {x : Option Ty → Resolve α}
    (inside : ∀ t, Declares names P (x t)) : Declares names P (Resolve.returning type x) := by
  intro here l a l' run
  obtain ⟨outer, l', got, run⟩ := bind_eq_ok.mp run
  cases got
  obtain ⟨t, start, ran, run⟩ := bind_eq_ok.mp run
  obtain rfl := Steady.same ran
  obtain ⟨-, -, ⟨⟩, run⟩ := bind_eq_ok.mp run
  obtain ⟨a, l', ran, run⟩ := bind_eq_ok.mp run
  obtain ⟨given, symbols, rfl, rfl⟩ := inside t here _ a l' ran
  cases run
  refine ⟨given, symbols, rfl, Locals.ext ?_ ?_⟩
  · exact Locals.frames_foldl_declare (rfl : { start with returns := t }.frames = start.frames) symbols
  · exact (Locals.returns_foldl_declare (l := start) symbols).symm

end Declares

end Resolve

/-! ## Properties of what is resolved -/

def Resolves {α : Type} (P : α → Prop) (x : Resolve α) : Prop := ∀ here l a l', x here l = .ok (a, l') → P a

theorem Resolve.Declares.resolves {α : Type} {names : List String} {P : α → Prop} {x : Resolve α} (h : Declares names P x) :
    Resolves P x := fun here l a l' run => (h here l a l' run).1

namespace Resolves

variable {α β : Type} {P : α → Prop} {Q : β → Prop}

theorem pure {a : α} (h : P a) : Resolves P (Pure.pure a) := (Resolve.Declares.pure h).resolves

variable {f : α → Resolve β} {x : Resolve α}

theorem bind (first : Resolves P x) (next : ∀ a, P a → Resolves Q (f a)) : Resolves Q (x >>= f) := by
  intro here l b l'' run
  obtain ⟨a, l', found, rest⟩ := Resolve.bind_eq_ok.mp run
  exact next a (first here l a l' found) here l' b l'' rest

/-- Whatever is resolved first. -/
theorem behind (next : ∀ a, Resolves Q (f a)) : Resolves Q (x >>= f) :=
  .bind (P := fun _ => True) (fun _ _ _ _ _ => trivial) fun a _ => next a

theorem fail (line : Int) (p : Problem) : Resolves P (Resolve.fail line p) := by
  intro here l a l' run
  cases run

theorem nested (h : Resolves P x) : Resolves P (Resolve.nested x) :=
  .behind fun _ => h.bind fun _ given => .behind fun _ => .pure given

end Resolves

/-! ## Lambdas by their parts -/

open Resolve

namespace Resolver

instance (s : Symbol) (receiver expected : Option Ty) : Steady (memberType s receiver expected) := by
  unfold memberType
  split <;> infer_instance

instance (name : String) (expected : Option Ty) : Steady (identifier name expected) := by
  refine .bind fun found => ?_
  split
  · infer_instance
  · refine .bind fun here => ?_
    split
    · infer_instance
    · refine .bind fun t => ?_
      split <;> infer_instance

instance (d : Draft) : Steady (literal d) := by
  refine .givenType d.type d.line fun hint => ?_
  split
  · infer_instance
  · dsimp only
    split <;> infer_instance

instance (name : String) (receiver : Option Ty) (throughType : Bool) (expected : Option Ty) :
    Steady (lookupMember name receiver throughType expected) := by
  refine .bind fun w => ?_
  dsimp only
  split <;> infer_instance

instance (candidates : List Symbol) (shape : CallShape) : Steady (overload candidates shape) :=
  inferInstanceAs (Steady (world >>= fun _ => liftM _))

instance (op : String) (place : Position) (operands : List (Option Expr)) : Steady (userOperator op place operands) := by
  unfold userOperator
  dsimp only
  split
  · infer_instance
  · refine .bind fun w => ?_
    split <;> infer_instance

instance (d : Draft) : Steady (declaredType d) := by
  unfold declaredType
  infer_instance

def lambdaReturns (w : World) (expected : Option Ty) : Resolve (Option Ty) :=
  match w.invoke? expected with
  | some s => putOpt (envOf expected) s.type
  | none => pure none

instance (w : World) (expected : Option Ty) : Steady (lambdaReturns w expected) := by
  unfold lambdaReturns
  split <;> infer_instance

def lambdaBody (r : Resolver) (d : Option Draft) (returns : Option Ty) : Resolve (Option LambdaBody) :=
  match d with
  | none => pure none
  | some b =>
    if b.kind = "block" then do pure (some (.block (← r.block b)))
    else do pure (some (.value (← r.expr b returns)))

/-- **A lambda by its parts.** -/
theorem lambda_eq (r : Resolver) (d : Draft) (expected : Option Ty) : r.lambda d expected = (do
    let w ← world
    nested do
      let parameters ← lambdaParameters d.line (envOf expected) d.parameters (((w.invoke? expected).map (·.parameters)).getD [])
      let body ← returning (lambdaReturns w expected) (r.lambdaBody d.body)
      pure (.lambda parameters body)) := by
  unfold lambda returning lambdaReturns lambdaBody envOf
  refine bind_congr fun w => congrArg nested (bind_congr fun parameters => ?_)
  rw [bind_assoc]
  cases w.invoke? expected <;> cases d.body with
  | none => simp only [bind_assoc, pure_bind]
  | some b =>
    dsimp only
    split <;> simp only [bind_assoc, pure_bind]

end Resolver

end Polyglot
