import Polyglot.Proofs.ArgumentLists
import Polyglot.Proofs.WeakFields.Trees

/-!
# Weak fields are locked where they are read

A weak field that is read outside of the left sides of assignments is locked, however deep it stands in the tree. One that is
assigned to is not, and neither is one that is read on the way to it: the flag is on for the whole left side.
-/

namespace Polyglot

namespace Emit

variable {r r' : Emitter} {k : Bool} {scene : Scene} {sheet : Sheet} {e : Expr} {target : Option Expr} {s : Symbol}

/-! ## One weak field -/

/-- What it takes to be a weak field. -/
theorem of_weakField? (weak : scene.weakField? e = some (target, s)) :
    e.symbol = some s ∧ scene.isWeakField s = true ∧
      (e.form = .identifier ∧ target = none ∨ e.form = .member target) := by
  unfold Scene.weakField? at weak
  split at weak
  · next form =>
    obtain ⟨found, symbol, same⟩ := Option.map_eq_some_iff.mp weak
    obtain ⟨symbol, isWeak⟩ := Option.filter_eq_some_iff.mp symbol
    cases same
    exact ⟨symbol, isWeak, .inl ⟨form, rfl⟩⟩
  · next form =>
    obtain ⟨found, symbol, same⟩ := Option.map_eq_some_iff.mp weak
    obtain ⟨symbol, isWeak⟩ := Option.filter_eq_some_iff.mp symbol
    cases same
    exact ⟨symbol, isWeak, .inr form⟩
  · cases weak

theorem of_isWeakField (weak : scene.isWeakField s = true) :
    s.isWeak = true ∧ (s.kind = .field ∨ s.kind = .event) ∧ scene.templates.find? s.key scene.target.name = none := by
  simpa [Scene.isWeakField, and_assoc] using weak

/-- A weak field is locked while the flag is off, and bare while it is on. -/
theorem fieldGet_weak (isWeak : s.isWeak = true) (lead : String) (scene : Scene) (sheet : Sheet) :
    fieldGet lead s scene sheet =
      (.ok (.postfixed (if sheet.mutating then lead ++ scene.symbolName s
        else lead ++ scene.symbolName s ++ scene.target.lock)), sheet) := by
  have name : symbolName s scene sheet = (.ok (scene.symbolName s), sheet) := rfl
  have flag : (get : Emit Sheet) scene sheet = (.ok sheet, sheet) := rfl
  have on : Emit.target scene sheet = (.ok scene.target, sheet) := rfl
  unfold fieldGet
  rw [bind_ok name, bind_ok flag, bind_ok on]
  cases scene.target <;> cases sheet.mutating <;> simp [isWeak, Target.lock] <;> rfl

/-- Whatever the flag, a weak field is emitted as one in a left side. -/
theorem expression_weakField (weak : scene.weakField? e = some (target, s)) (r : Emitter) (isStatement : Bool)
    (sheet : Sheet) : expression r isStatement e scene sheet = placeGet r target s scene sheet := by
  obtain ⟨symbol, isWeakField, form⟩ := of_weakField? weak
  obtain ⟨isWeak, kind, plain⟩ := of_isWeakField isWeakField
  have read : memberRead r e target s scene sheet = placeGet r target s scene sheet := by
    have bare : template? s.key scene sheet = (.ok none, sheet) := by
      change (Except.ok (scene.templates.find? s.key scene.target.name), sheet) = _
      rw [plain]
    have field (lead : String) (inner : Sheet) := fieldGet_weak isWeak lead scene inner
    unfold memberRead placeGet
    rw [bind_ok bare]
    rcases kind with kind | kind
    all_goals
      simp only [kind, reduceCtorEq, if_false]
      rw [bind_apply, bind_apply]
      split
      · exact field _ _
      · rfl
  unfold expression
  rcases form with ⟨form, rfl⟩ | form
  · rw [form]
    unfold identifier
    rcases kind with kind | kind <;> simp only [symbol, kind, read]
  · rw [form]
    unfold memberAccess
    rcases kind with kind | kind <;> simp [symbol, kind, read]

/-- From where the flag is off, a weak field is locked. -/
theorem alike_lockedGet (parts : r.Alike false r') (target : Option Expr) (s : Symbol) :
    Alike false (placeGet r target s) (lockedGet r' target s) := by
  refine (holds_memberLead (alike_trees parts).logic target s).bind fun lead => ?_
  intro scene sheet off
  refine .inr ⟨?_, fun a after run => ?_⟩
  · change (Except.ok (Rendered.postfixed (if sheet.mutating = true then _ else _)), sheet) = (Except.ok _, sheet)
    rw [off rfl]
    rfl
  · cases run
    rfl

theorem Alike.self {α : Type} {x y : Emit α} (alike : Alike false x y) : Alike false x x := by
  intro scene sheet off
  rcases alike scene sheet off with ⟨⟨⟩, -⟩ | ⟨-, kept⟩
  exact .inr ⟨rfl, kept⟩

end Emit

namespace Emitter

open Emit

variable {r r' : Emitter}

/-! ## Outside and inside of left sides -/

/-- What agrees with a way to emit while the flag is off may take its place there. -/
theorem byFlag_eq (parts : r.Alike false r') : byFlag r r' = r := by
  have same {α : Type} {x y : Emit α} (alike : Emit.Alike false x y) :
      (do if (← get).mutating then x else y) = x := by
    funext scene sheet
    change (if sheet.mutating = true then x else y) scene sheet = x scene sheet
    cases flag : sheet.mutating with
    | true => rfl
    | false =>
      rcases alike scene sheet (fun _ => flag) with ⟨⟨⟩, -⟩ | ⟨agrees, -⟩
      exact agrees.symm
  cases r
  simp only [byFlag, mk.injEq]
  exact ⟨funext fun e => same (parts.bare e), funext fun e => same (parts.action e), funext fun s => same (parts.stmt s)⟩

theorem atPlaces_bare (parts : r.Alike false r') {places : List Expr} {c : Expr} (here : c ∈ places) :
    (atPlaces places r r').bare c = r.bare c := by
  unfold atPlaces
  simp only [here, if_true, byFlag_eq parts]

theorem atPlaces_alike (parts : r.Alike false r') (places : List Expr) : r.Alike false (atPlaces places r r') where
  bare c := by
    by_cases here : c ∈ places
    · rw [atPlaces_bare parts here]
      exact (parts.bare c).self
    · simpa only [atPlaces, here, if_false] using parts.bare c
  action := parts.action
  stmt := parts.stmt

/-- One level more outside of left sides: a weak field is locked, and anything else is emitted from parts that agree. -/
theorem alike_readWith (parts : r.Alike false r') (isStatement : Bool) (e : Expr) :
    Emit.Alike false (expression r isStatement e) (readWith r r' isStatement e) := by
  intro scene sheet off
  have scenes : (read : Emit Scene) scene sheet = (.ok scene, sheet) := rfl
  unfold readWith
  rw [bind_ok scenes]
  cases weak : scene.weakField? e with
  | none =>
    refine alike_expression (atPlaces_alike parts e.places) (fun _ => ⟨rfl, fun c here => ?_⟩) scene sheet off
    exact (atPlaces_bare parts here).symm
  | some found =>
    rw [expression_weakField weak]
    exact alike_lockedGet parts _ _ scene sheet off

/-- One level more in a left side: nothing else happens than in emission. -/
theorem placeWith_eq (r : Emitter) (isStatement : Bool) : placeWith r isStatement = expression r isStatement := by
  funext e scene sheet
  have scenes : (read : Emit Scene) scene sheet = (.ok scene, sheet) := rfl
  unfold placeWith
  rw [bind_ok scenes]
  cases weak : scene.weakField? e with
  | none => rfl
  | some found => exact (expression_weakField weak r isStatement sheet).symm

/-- **Emission by positions is emission**: outside of left sides as long as the flag is off, and inside always. -/
theorem within_alike_byPosition (levels : Nat) :
    (within levels).Alike false (byPosition levels false) ∧ byPosition levels true = within levels := by
  induction levels with
  | zero => exact ⟨⟨fun _ => keeps_crash.alike, fun _ => keeps_crash.alike, fun _ => keeps_crash.alike⟩, rfl⟩
  | succ levels ih =>
    obtain ⟨outside, inside⟩ := ih
    refine ⟨?_, ?_⟩
    · unfold byPosition
      rw [inside]
      exact ⟨alike_readWith outside false, alike_readWith outside true, alike_statement outside⟩
    · unfold byPosition
      rw [inside, byFlag_eq outside]
      dsimp only
      rw [placeWith_eq, placeWith_eq]
      rfl

/-- **Emission that knows no changes is emission**, or refuses one. -/
theorem within_alike_unchanging (levels : Nat) : (within levels).Alike true (unchanging levels) := by
  induction levels with
  | zero => exact ⟨fun _ => keeps_crash.alike, fun _ => keeps_crash.alike, fun _ => keeps_crash.alike⟩
  | succ levels ih =>
    have render (isStatement : Bool) (e : Expr) : Emit.Alike true (expression (within levels) isStatement e)
        (if e.changes isStatement then throw refusal else expression (unchanging levels) isStatement e) := by
      cases change : e.changes isStatement with
      | true => exact fun _ _ _ => .inl ⟨rfl, rfl⟩
      | false => exact alike_expression ih fun isChange => absurd (change.symm.trans isChange) Bool.false_ne_true
    exact ⟨render false, render true, alike_statement ih⟩

end Emitter

namespace Emit

variable {scene : Scene} {sheet : Sheet} {e : Expr} {target : Option Expr} {s : Symbol} {levels : Nat}

/-- Nothing is changed on the way to a member: emission that knows no changes does not refuse it. -/
def IsReached (levels : Nat) (scene : Scene) (target : Option Expr) (s : Symbol) : Prop :=
  ∀ sheet, (memberLead (.unchanging levels) target s scene sheet).1 ≠ .error refusal

/-- **A weak field in a left side is bare**, as a place and as a receiver. -/
theorem bare_weakField (weak : scene.weakField? e = some (target, s)) (on : sheet.mutating = true)
    (reached : IsReached levels scene target s) :
    (Emitter.within (levels + 1)).bare e scene sheet = (do
      let lead ← memberLead (.within levels) target s
      pure (Rendered.postfixed (lead ++ scene.symbolName s)) : Emit Rendered) scene sheet := by
  rcases holds_memberLead (alike_trees (Emitter.within_alike_unchanging levels)).logic target s scene sheet (by rintro ⟨⟩) with
    ⟨-, refused⟩ | ⟨-, kept⟩
  · exact absurd refused (reached sheet)
  · refine (expression_weakField weak _ _ _).trans ?_
    unfold placeGet
    rw [bind_apply, bind_apply]
    cases run : memberLead (.within levels) target s scene sheet with
    | mk outcome after =>
      cases outcome with
      | error f => rfl
      | ok lead =>
        have flag : after.mutating = true := (kept lead after run).trans on
        change (Except.ok (Rendered.postfixed (if after.mutating = true then _ else _)), after) = _
        rw [flag]
        rfl

/-- The text assigns to a place. -/
def Assigns (place : Rendered) (text : String) : Prop :=
  ∃ least mark rest, mark ∈ [" ", " = Rc::downgrade(&", ".push_str(&"] ∧ text = place.operand least ++ mark ++ rest

variable {right : Option Expr} {x : Rendered} {l : Expr}

/-- **An assignment begins with its place**, which is emitted with the flag on. -/
theorem assigns_of_assignment {r : Emitter} (symbol : l.symbol = some s) (kind : s.kind = .field ∨ s.kind = .event)
    (run : MayGive scene (assignment r e (some l) right) x) :
    ∃ place, MayGive scene (mutably (r.value (some l))) place ∧ Assigns place x.text := by
  obtain ⟨t, -, run⟩ := run.of_bind
  split at run
  · obtain ⟨value, -, run⟩ := run.of_bind
    obtain ⟨place, emitted, run⟩ := run.of_bind
    refine ⟨place, emitted, ?_⟩
    split at run
    · obtain rfl := run.of_pure
      exact ⟨0, " = Rc::downgrade(&", borrowed (value.operand Prec.unary) ++ ")", by simp, by
        simp only [Rendered.compound, Rendered.operand, Nat.not_lt_zero, if_false, String.append_assoc]⟩
    · obtain rfl := run.of_pure
      exact ⟨Prec.postfixed, ".push_str(&", value.operand Prec.unary ++ ")", by simp, by
        simp only [Rendered.settled, String.append_assoc]⟩
  · obtain ⟨value, -, run⟩ := run.of_bind
    have plain (run : MayGive scene (plainAssignment.assign r (some l) (assignmentOperator e) value) x) :
        ∃ place, MayGive scene (mutably (r.value (some l))) place ∧ Assigns place x.text := by
      obtain ⟨place, emitted, run⟩ := run.of_bind
      obtain rfl := run.of_pure
      exact ⟨place, emitted, Prec.unary, " ", assignmentOperator e ++ " " ++ value.operand Prec.assignment, by simp, by
        simp only [Rendered.compound, String.append_assoc]⟩
    have symbolOf : symbolOf (some l) = some s := symbol
    simp only [symbolOf] at run
    obtain ⟨d, -, run⟩ := run.of_bind
    split at run
    · obtain ⟨before, after, ⟨⟩⟩ := run
    · split at run
      · next property => rcases kind with kind | kind <;> cases kind.symm.trans property
      · exact plain run

/-- **An assigned weak field is bare** where nothing is changed on the way to it. -/
theorem assigns_bare (form : e.form = .assign (some l) right) (weak : scene.weakField? l = some (target, s))
    (reached : IsReached levels scene target s) (run : MayGive scene ((Emitter.within (levels + 2)).bare e) x) :
    ∃ lead place, MayGive scene (memberLead (.within levels) target s) lead ∧
      MayGive scene (Emitter.convert l (.postfixed (lead ++ scene.symbolName s))) place ∧ Assigns place x.text := by
  obtain ⟨symbol, isWeakField, -⟩ := of_weakField? weak
  obtain ⟨-, kind, -⟩ := of_isWeakField isWeakField
  have assigned : MayGive scene (assignment (.within (levels + 1)) e (some l) right) x := by
    change MayGive scene (expression (.within (levels + 1)) false e) x at run
    unfold expression at run
    rwa [form] at run
  obtain ⟨place, ⟨before, after, emitted⟩, begins⟩ := assigns_of_assignment symbol kind assigned
  obtain ⟨outcome, -⟩ := Prod.mk.inj emitted
  have flagged : (Emitter.within (levels + 1)).value (some l) scene { before with mutating := true } = (.ok place, _) :=
    Prod.ext outcome rfl
  obtain ⟨y, inner, bare, converted⟩ := bind_eq_ok flagged
  rw [bare_weakField weak rfl reached] at bare
  obtain ⟨lead, behind, first, last⟩ := bind_eq_ok bare
  cases last
  exact ⟨lead, place, ⟨_, _, first⟩, ⟨_, _, converted⟩, begins⟩

/-- **Weak fields are locked where they are read.** Outside of left sides every weak field is locked, and the flag is
left off. In a left side, where the flag is on, every weak field is bare that is reached without a change. So is one that
is assigned to. -/
theorem weak_fields_locked (levels : Nat) (scene : Scene) :
    (Emitter.within levels).Alike false (.byPosition levels false) ∧
    (∀ e target s sheet, scene.weakField? e = some (target, s) → sheet.mutating = true →
      IsReached levels scene target s → (Emitter.within (levels + 1)).bare e scene sheet = (do
        let lead ← memberLead (.within levels) target s
        pure (Rendered.postfixed (lead ++ scene.symbolName s)) : Emit Rendered) scene sheet) ∧
    (∀ e l right target s x, e.form = .assign (some l) right → scene.weakField? l = some (target, s) →
      IsReached levels scene target s → MayGive scene ((Emitter.within (levels + 2)).bare e) x →
      ∃ lead place, MayGive scene (memberLead (.within levels) target s) lead ∧
        MayGive scene (Emitter.convert l (.postfixed (lead ++ scene.symbolName s))) place ∧ Assigns place x.text) := by
  refine ⟨(Emitter.within_alike_byPosition levels).1, ?_, ?_⟩
  · intro e target s sheet weak on reached
    exact bare_weakField weak on reached
  · intro e l right target s x form weak reached run
    exact assigns_bare form weak reached run

def parentOf (name : String) : Expr :=
  .node { place := {}, symbol := some { kind := .field, name := "parent", isWeak := true } }
    (.member (some (.node { place := {}, symbol := some { kind := .parameter, name } } .identifier)))

/-- One weak field is assigned to another: `peer.parent = other.parent`. -/
def movedParent : Expr := .node { place := {} } (.assign (some (parentOf "peer")) (some (parentOf "other")))

/-- The one that is read is locked, and the other one is not. -/
theorem weak_fields_locked_moved :
    (∃ x, MayGive (.bare .cpp) ((Emitter.within 4).bare movedParent) x ∧ x.text = "peer->parent = other->parent.lock()") ∧
    (Emitter.within 4).bare movedParent (.bare .cpp) (Scene.bare .cpp).blank =
      (Emitter.byPosition 4 false).bare movedParent (.bare .cpp) (Scene.bare .cpp).blank ∧
    ((Emitter.within 3).bare (parentOf "peer") (.bare .cpp) { (Scene.bare .cpp).blank with mutating := true }).1 =
      .ok (.postfixed "peer->parent") ∧
    ∃ lead place, MayGive (.bare .cpp) (Emitter.convert (parentOf "peer") (.postfixed (lead ++ "parent"))) place ∧
      Assigns place "peer->parent = other->parent.lock()" := by
  have run : MayGive (.bare .cpp) ((Emitter.within 4).bare movedParent)
      (.compound "peer->parent = other->parent.lock()" Prec.assignment) := ⟨(Scene.bare .cpp).blank, _, rfl⟩
  have reached : IsReached 2 (.bare .cpp) (some (.node { place := {}, symbol := some { kind := .parameter, name := "peer" } }
      .identifier)) { kind := .field, name := "parent", isWeak := true } := fun _ => by rintro ⟨⟩
  obtain ⟨-, inside, assigned⟩ := weak_fields_locked 2 (.bare .cpp)
  obtain ⟨lead, place, -, converted, begins⟩ := assigned movedParent _ _ _ _ _ rfl rfl reached run
  refine ⟨⟨_, run, rfl⟩, ?_, ?_, lead, place, converted, begins⟩
  · rcases (weak_fields_locked 4 (.bare .cpp)).1.bare movedParent (.bare .cpp) (Scene.bare .cpp).blank (fun _ => rfl) with
      ⟨⟨⟩, -⟩ | ⟨same, -⟩
    exact same
  · rw [inside (parentOf "peer") _ _ _ rfl rfl reached]
    rfl

/-- What belongs to a weak field is assigned to: `this.parent.size = 1`. -/
def grownParent : Expr :=
  let parent := .node { place := {}, symbol := some { kind := .field, name := "parent", isWeak := true } }
    (.member (some (.node { place := {} } .this)))
  let size := .node { place := {}, symbol := some { kind := .field, name := "size" } } (.member (some parent))
  .node { place := {} } (.assign (some size) (some (.node { place := {} } (.literal ⟨.int, "1"⟩))))

/-- **A weak field that is read in a left side is not locked**, in C++ and in Rust. -/
theorem weak_receiver_not_locked :
    MayGive (.bare .cpp) ((Emitter.within 4).bare grownParent) (.compound "this->parent->size = 1" Prec.assignment) ∧
    MayGive (.bare .rust) ((Emitter.within 4).bare grownParent)
      (.compound "self.parent.borrow_mut().size = 1" Prec.assignment) :=
  ⟨⟨(Scene.bare .cpp).blank, _, rfl⟩, (Scene.bare .rust).blank, _, rfl⟩

end Emit

end Polyglot
