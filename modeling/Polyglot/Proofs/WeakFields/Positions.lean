import Polyglot.Proofs.Writing.Statements

/-!
# Weak fields by their position

A weak field that is read has to be locked, and one that is assigned to must not be. Emission asks a flag of the sheet, which
is on while the left side of an assignment is rendered. `Emitter.byPosition` says what that comes to, by the position of a node
alone.
-/

namespace Polyglot

/-- What locks a weak reference. -/
def Target.lock : Target → String
  | .cpp => ".lock()"
  | .rust => ".upgrade().unwrap()"
  | _ => ""

namespace Scene

variable (scene : Scene)

def isWeakField (s : Symbol) : Bool :=
  s.isWeak && (s.kind = .field || s.kind = .event) && (scene.templates.find? s.key scene.target.name).isNone

/-- The weak field that a node reads or writes, with its target. -/
def weakField? (e : Expr) : Option (Option Expr × Symbol) :=
  match e.form with
  | .identifier => (e.symbol.filter scene.isWeakField).map (none, ·)
  | .member target => (e.symbol.filter scene.isWeakField).map (target, ·)
  | _ => none

end Scene

namespace Expr

/-- Does an expression change something, while the flag is on? Counting up and down may, as a statement. -/
def changes (isStatement : Bool) (e : Expr) : Bool :=
  match e.form with
  | .assign _ _ => true
  | .unary _ => isStatement && e.userOperator?.isNone && (e.mark.op = "++" || e.mark.op = "--")
  | _ => false

/-- What a change is made to: its left side, and what a property on the left side belongs to. -/
def places (e : Expr) : List Expr :=
  match e.form with
  | .assign (some left) _ => left :: (Emit.assignedOn left).1.toList
  | .unary (some operand) => [operand]
  | _ => []

end Expr

namespace Emit

/-- **A weak field that is read**: it is locked. -/
def lockedGet (r : Emitter) (target : Option Expr) (s : Symbol) : Emit Rendered := do
  let lead ← memberLead r target s
  let scene ← read
  pure (.postfixed (lead ++ scene.symbolName s ++ scene.target.lock))

/-- **A weak field in a left side**: it is bare, unless something was changed on the way to it. -/
def placeGet (r : Emitter) (target : Option Expr) (s : Symbol) : Emit Rendered := do
  let lead ← memberLead r target s
  let scene ← read
  let text := lead ++ scene.symbolName s
  pure (.postfixed (if (← get).mutating then text else text ++ scene.target.lock))

def refusal : Fault := .assertion "change"

end Emit

namespace Emitter

/-- No tree at all. -/
def nothing : Emitter where
  bare _ := Emit.crash
  action _ := Emit.crash
  stmt _ := Emit.crash

/-- One way to emit while the flag of a change is on, and another one while it is off. -/
def byFlag (on off : Emitter) : Emitter where
  bare e := do if (← get).mutating then on.bare e else off.bare e
  action e := do if (← get).mutating then on.action e else off.action e
  stmt s := do if (← get).mutating then on.stmt s else off.stmt s

open Classical in
/-- One way to emit the places of a change, and another one for the rest. -/
noncomputable def atPlaces (places : List Expr) (inside outside : Emitter) : Emitter where
  bare e := if e ∈ places then (byFlag inside outside).bare e else outside.bare e
  action := outside.action
  stmt := outside.stmt

/-- An expression outside of left sides: a weak field is locked. -/
noncomputable def readWith (inside outside : Emitter) (isStatement : Bool) (e : Expr) : Emit Rendered := do
  match (← read).weakField? e with
  | some (target, s) => Emit.lockedGet outside target s
  | none => Emit.expression (atPlaces e.places inside outside) isStatement e

/-- An expression in a left side. -/
def placeWith (parts : Emitter) (isStatement : Bool) (e : Expr) : Emit Rendered := do
  match (← read).weakField? e with
  | some (target, s) => Emit.placeGet parts target s
  | none => Emit.expression parts isStatement e

/-- **Emission by positions** of trees that are not deeper than a number of levels. It is emission but for the weak
fields: outside of left sides all of them are locked. -/
noncomputable def byPosition : (levels : Nat) → (isInside : Bool) → Emitter
  | 0, _ => nothing
  | levels + 1, false =>
    let inside := byPosition levels true
    let outside := byPosition levels false
    { bare := readWith inside outside false
      action := readWith inside outside true
      stmt := Emit.statement outside }
  | levels + 1, true =>
    let parts := byFlag (byPosition levels true) (byPosition levels false)
    { bare := placeWith parts false
      action := placeWith parts true
      stmt := Emit.statement parts }

/-- **Emission that knows no changes**: it refuses to emit one. -/
def unchanging : Nat → Emitter
  | 0 => nothing
  | levels + 1 =>
    let parts := unchanging levels
    let render (isStatement : Bool) (e : Expr) : Emit Rendered :=
      if e.changes isStatement then throw Emit.refusal else Emit.expression parts isStatement e
    { bare := render false
      action := render true
      stmt := Emit.statement parts }

end Emitter

/-! ## Agreement -/

namespace Emit

variable {α β : Type} {k : Bool}

/-- **Two emissions agree**, and leave the flag as it is. There are two ways to agree: on all sheets, unless the second
one refuses a change (`k`), or on the sheets whose flag is off. -/
def Alike (k : Bool) (x y : Emit α) : Prop :=
  ∀ scene sheet, (k = false → sheet.mutating = false) →
    (k = true ∧ (y scene sheet).1 = .error refusal) ∨
      (x scene sheet = y scene sheet ∧ ∀ a after, x scene sheet = (.ok a, after) → after.mutating = sheet.mutating)

@[grind ←] theorem Keeps.alike {x : Emit α} (steady : Keeps Sheet.mutating x) : Alike k x x := by
  intro scene sheet _
  have kept := steady scene sheet
  refine .inr ⟨rfl, fun a after run => ?_⟩
  rwa [run] at kept

namespace Alike

@[grind ←] theorem bind {x y : Emit α} {f f' : α → Emit β} (first : Alike k x y) (next : ∀ a, Alike k (f a) (f' a)) :
    Alike k (x >>= f) (y >>= f') := by
  intro scene sheet flag
  rw [bind_apply, bind_apply]
  rcases first scene sheet flag with ⟨isTrue, refused⟩ | ⟨same, kept⟩
  · refine .inl ⟨isTrue, ?_⟩
    cases result : y scene sheet with
    | mk outcome inner =>
      rw [result] at refused
      obtain rfl : outcome = .error refusal := refused
      rfl
  · rw [← same]
    cases result : x scene sheet with
    | mk outcome inner =>
      cases outcome with
      | error e => exact .inr ⟨rfl, by rintro a after ⟨⟩⟩
      | ok a =>
        have stays := kept a inner result
        have agrees := next a scene inner fun isFalse => stays.trans (flag isFalse)
        rwa [stays] at agrees

/-- A change leaves the flag off, as it was. -/
@[grind ←] theorem mutably (x : Emit α) : Alike false (mutably x) (mutably x) := by
  intro scene sheet off
  refine .inr ⟨rfl, fun a after run => ?_⟩
  obtain ⟨-, rfl⟩ := Prod.mk.inj run
  exact (off rfl).symm

@[grind ←] theorem capture {x y : Emit Unit} (alike : Alike k x y) : Alike k (capture x) (capture y) := by
  intro scene sheet flag
  have inner := alike scene { sheet with writer := sheet.writer.push } flag
  unfold Emit.capture
  cases left : x scene { sheet with writer := sheet.writer.push } with
  | mk outcome after =>
    cases right : y scene { sheet with writer := sheet.writer.push } with
    | mk outcome' after' =>
      rw [left, right] at inner
      rcases inner with ⟨isTrue, refused⟩ | ⟨same, kept⟩
      · obtain rfl : outcome' = .error refusal := refused
        exact .inl ⟨isTrue, rfl⟩
      · obtain ⟨rfl, rfl⟩ := Prod.mk.inj same
        refine .inr ⟨rfl, fun text last run => ?_⟩
        obtain ⟨first, rfl⟩ := Prod.mk.inj run
        cases outcome with
        | error e => cases first
        | ok _ => exact kept () after rfl

@[grind ←] theorem inHandler {x y : Emit α} (alike : Alike k x y) (name : String) :
    Alike k (inHandler name x) (inHandler name y) := by
  intro scene sheet flag
  let inner : Sheet := { sheet with handlers := name :: sheet.handlers }
  rcases alike scene inner flag with refused | ⟨same, kept⟩
  · exact .inl refused
  · refine .inr ⟨by rw [Emit.inHandler, Emit.inHandler, same], fun a after run => ?_⟩
    obtain ⟨outcome, rfl⟩ := Prod.mk.inj run
    exact kept a (x scene inner).2 (Prod.ext outcome rfl)

end Alike

end Emit

/-- **Two ways to emit the parts of a tree agree.** -/
structure Emitter.Alike (k : Bool) (r r' : Emitter) : Prop where
  bare : ∀ e, Emit.Alike k (r.bare e) (r'.bare e)
  action : ∀ e, Emit.Alike k (r.action e) (r'.action e)
  stmt : ∀ s, Emit.Alike k (r.stmt s) (r'.stmt s)

end Polyglot
