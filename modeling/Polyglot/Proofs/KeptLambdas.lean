import Polyglot.Proofs.ArgumentConservation
import Polyglot.Proofs.Lambdas
import Polyglot.Proofs.Resolving

/-!
# Resolution keeps lambdas

A lambda that is an argument waits until the overload is chosen. Each way out of a call has to finish its pending ones: where
the call is bound, every argument meets the type of its parameter; everywhere else they are finished without a type. So
whatever a draft becomes has all of its lambdas.
-/

namespace Polyglot

open List

/-! ## Arguments -/

open Resolve Resolver

def Resolver.Pending.isDone : Pending → Bool
  | .done _ => true
  | .lambda _ _ => false

abbrev KeptExpr (ds : List Draft) (e : Expr) : Prop := Kept ds (Node.expr e).lambdas

abbrev KeptStmt (ds : List Draft) (s : Stmt) : Prop := Kept ds (Node.stmt s).lambdas

/-- What an argument that may wait is for its draft: it has the lambdas of the draft, or it is the lambda that the draft is. -/
def Resolver.Pending.Awaits (d : Draft) : Pending → Prop
  | .done e => KeptExpr d.resolved e
  | .lambda mark l => l = d ∧ NodeKind.ofText? d.kind = some .lambda ∧ mark.place.line = d.line ∧ mark.place.column = d.column

/-- Arguments that may wait, one for each draft. -/
abbrev AwaitAll (ds : List (Option Draft)) (args : List (Argument Pending)) : Prop :=
  Forall₂ (fun d a => ∃ draft, d = some draft ∧ a.value.Awaits draft) ds args

/-- Arguments as they are before binding: exactly the lambdas among them wait. -/
abbrev FreshAll (ds : List (Option Draft)) (args : List (Argument Pending)) : Prop :=
  Forall₂ (fun d a => ∃ draft, d = some draft ∧ a.value.Awaits draft ∧ (a.value.isDone ↔ draft.kind ≠ "lambda")) ds args

variable {args : List (Argument Pending)} {ds : List (Option Draft)} {i : Nat}

theorem FreshAll.await (fresh : FreshAll ds args) : AwaitAll ds args :=
  fresh.imp fun _ _ ⟨draft, here, awaits, _⟩ => ⟨draft, here, awaits⟩

abbrev KeptAll (ds : List (Option Draft)) (args : List (Argument Expr)) : Prop :=
  Forall₂ (fun d a => ∃ draft, d = some draft ∧ KeptExpr draft.resolved a.value) ds args

theorem KeptAll.kept {ds : List (Option Draft)} {args : List (Argument Expr)} (kept : KeptAll ds args) :
    Kept (resolvedAll ds) (lambdasOfArgs args) := by
  induction kept with
  | nil => exact .nil
  | cons here _ ih =>
    obtain ⟨d, rfl, here⟩ := here
    exact rel_append here ih

/-- When no argument waits any more, all lambdas are there. -/
theorem AwaitAll.bareArguments {ds : List (Option Draft)} {args : List (Argument Pending)} (await : AwaitAll ds args)
    (done : ∀ (i : Nat) (a : Argument Pending), args[i]? = some a → a.value.isDone) : KeptAll ds (bareArguments args) := by
  induction await with
  | nil => exact .nil
  | @cons d a ds args here _ ih =>
    refine .cons ?_ (ih fun i => done (i + 1))
    obtain ⟨d, rfl, here⟩ := here
    have isDone := done 0 a rfl
    obtain ⟨value, name, passing⟩ := a
    cases value with
    | done e => exact ⟨d, rfl, here⟩
    | lambda mark l => cases isDone

theorem AwaitAll.set (await : AwaitAll ds args) {a a' : Argument Pending} (here : args[i]? = some a)
    (same : ∀ d, a.value.Awaits d → a'.value.Awaits d) : AwaitAll ds (args.set i a') := by
  refine forall₂_set_right await here ?_
  rintro _ ⟨d, rfl, awaits⟩
  exact ⟨d, rfl, same d awaits⟩

theorem arg_mem_of_bindTo {w : World} {method : Symbol} {place : Position} {receiver : Option Expr} {bounds : List (Bound Slot)}
    (run : (shapeOf place receiver args).bindTo w method = .ok bounds) (bound : i < args.length) :
    ∃ b ∈ bounds, b.source.isActual ∧ .arg i ∈ b.args := by
  have values := (Binding.bounds_of_bind run).2
  have mem : Slot.arg i ∈ (Binding.actuals method ((shapeOf place receiver args).receiver.map fun _ => .receiver)
      (shapeOf place receiver args).slots).map (·.value) := by
    have slot : Slot.arg i ∈ (shapeOf place receiver args).slots.map (·.value) := by
      simp [CallShape.slots, shapeOf, mem_zipIdx_iff_getElem?, bound]
    unfold Binding.actuals
    split
    · split
      · exact mem_cons_of_mem _ slot
      · exact slot
    · exact slot
  obtain ⟨b, hb, mem⟩ := mem_flatMap.mp (values.mem_iff.mpr mem)
  obtain ⟨hb, isActual⟩ := mem_filter.mp hb
  exact ⟨b, hb, isActual, mem⟩

/-! ## Resolving -/

theorem declares_markOf (d : Draft) : Declares [] (fun m => m.place.line = d.line ∧ m.place.column = d.column) (markOf d) :=
  .behind fun _ => .pure ⟨rfl, rfl⟩

namespace Resolver

variable {r : Resolver}

/-- What a kind of expressions gives has the lambdas of some drafts. -/
abbrev KeptForm (ds : List Draft) (x : Mark × ExprForm × Option Ty) : Prop := KeptExpr ds (.node x.1 x.2.1)

/-- Every lambda of a draft is in the tree, and the names of its level are declared, and nothing else. -/
structure KeepsLambdas (r : Resolver) : Prop where
  expr : ∀ d expected, Declares d.declared (KeptExpr d.resolved) (r.expr d expected)
  stmt : ∀ d, Declares d.declared (KeptStmt d.resolved) (r.stmt d)

namespace KeepsLambdas

variable (keeps : r.KeepsLambdas)
include keeps

theorem exprOpt (d : Option Draft) (expected : Option Ty) :
    Declares (declaredOpt d) (fun e => Kept (resolvedOpt d) (lambdasOf e)) (r.exprOpt d expected) := by
  cases d with
  | none => exact .pure .nil
  | some d => exact (keeps.expr d expected).before fun e kept => .pure ((lambdasOf_some e).symm ▸ kept)

theorem mapM_exprOpt (ds : List (Option Draft)) (expected : Option Ty) :
    Declares (declaredAll ds) (fun es => Kept (resolvedAll ds) (es.flatMap lambdasOf)) (ds.mapM (r.exprOpt · expected)) := by
  rw [declaredAll_eq]
  refine (Declares.mapM (keeps.exprOpt · expected) ds).mono fun es each => ?_
  induction each with
  | nil => exact .nil
  | @cons d e ds es here _ ih =>
    have both : resolvedAll (d :: ds) = resolvedOpt d ++ resolvedAll ds := by cases d <;> rfl
    rw [both]
    exact rel_append here ih

theorem block (d : Draft) : Declares [] (KeptStmt d.resolved) (r.block d) := by
  refine .ite (fun isBlock => Draft.declared_block isBlock ▸ keeps.stmt d) fun _ => ?_
  refine (Declares.nested (keeps.stmt d)).before fun s kept => .behind fun _ => .pure ?_
  simpa [KeptStmt, lambdas_stmt, Node.stmtChildren] using kept

omit keeps in
theorem lambdaParameters (line : Int) (env : TypeEnv) (ps : List (Option (ParameterDraft Draft))) (signature : List Parameter) :
    Declares (ps.filterMap (·.map (·.name)))
      (fun parameters => (parameters.map (·.name)).map some = ps.map (Option.map (·.name)))
      (lambdaParameters line env ps signature) := by
  induction ps generalizing signature with
  | nil => exact .pure rfl
  | cons p ps ih =>
    cases p with
    | none => exact .crash
    | some p =>
      refine .ite (fun _ => .behind fun _ => .behind fun _ => ?_) fun _ => .behind fun _ => ?_
      all_goals
        exact (Declares.declare _).bind fun _ _ => (ih signature.tail).before fun _ names =>
          .pure (congrArg (some p.name :: ·) names)

theorem lambdaBody (d : Option Draft) (returns : Option Ty) : Declares (declaredOpt d) (fun body => body.isSome = d.isSome ∧
        ∀ parameters, Kept (resolvedOpt d) ((Node.exprChildren (.lambda parameters body)).flatMap Node.lambdas))
      (r.lambdaBody d returns) := by
  cases d with
  | none => exact .pure ⟨rfl, fun _ => .nil⟩
  | some b =>
    refine .ite (fun isBlock => ?_) fun _ => ?_
    · rw [declaredOpt, Draft.declared_block isBlock]
      refine (keeps.block b).before fun s kept => .pure ⟨rfl, fun _ => ?_⟩
      rw [Node.exprChildren, flatMap_singleton]
      exact kept
    · refine (keeps.expr b returns).before fun e kept => .pure ⟨rfl, fun _ => ?_⟩
      rw [Node.exprChildren, flatMap_singleton]
      exact kept

/-- **A lambda has its parameters and its body**, where it is put in the place of its draft, and leaves the locals alone. -/
theorem lambda (d : Draft) (expected : Option Ty) :
    Declares [] (fun form => ∀ mark : Mark, (Pending.lambda mark d).Awaits d → KeptExpr d.resolved (.node mark form))
      (r.lambda d expected) := by
  rw [lambda_eq]
  refine .behind fun w => .nested ((lambdaParameters _ _ _ _).bind fun parameters names =>
    (Declares.returning fun returns => keeps.lambdaBody d.body returns).before fun body inside => .pure ?_)
  rintro mark ⟨-, isLambda, line, column⟩
  have parts : d.resolved = d :: resolvedOpt d.body := by
    rw [Draft.resolved_eq isLambda]
    simp [NodeKind.parts, Draft.resolvedPart]
  rw [KeptExpr, lambdas_lambda, parts]
  exact .cons ⟨line, column, congrArg some names, inside.1⟩ (inside.2 parameters)

theorem arguments (ds : List (Option Draft)) : Declares (declaredAll ds) (FreshAll ds) (r.arguments ds) := by
  induction ds with
  | nil => exact .pure .nil
  | cons d ds ih =>
    cases d with
    | none => exact .crash
    | some d =>
      unfold Resolver.arguments
      split
      · exact .fail _ _
      · refine .ite (fun isLambda => ?_) fun other => ?_
        · have known : NodeKind.ofText? d.kind = some .lambda := by rw [isLambda]; rfl
          have waits : (false = true) ↔ d.kind ≠ "lambda" := iff_of_false Bool.false_ne_true (absurd isLambda)
          rw [declaredAll, declaredOpt, Draft.declared_lambda isLambda]
          refine (declares_markOf d).after fun mark place => ?_
          exact ih.before fun rest fresh => .pure (.cons ⟨d, rfl, ⟨rfl, known, place⟩, waits⟩ fresh)
        · refine (keeps.expr d none).bind fun e kept => ?_
          exact ih.before fun rest fresh => .pure (.cons ⟨d, rfl, kept, iff_of_true rfl other⟩ fresh)

variable {ds : List (Option Draft)} {args : List (Argument Pending)}

theorem finishPending (await : AwaitAll ds args) : Declares [] (KeptAll ds) (r.finishPending args) := by
  refine (Declares.each (R := fun a b => ∀ d, a.value.Awaits d → KeptExpr d.resolved b.value) (fun a => ?_) args).mono
    fun finished all => ?_
  · obtain ⟨value, name, passing⟩ := a
    cases value with
    | done e => exact .pure fun d kept => kept
    | lambda mark l =>
      refine (keeps.lambda l none).after fun form kept => .pure ?_
      rintro d ⟨rfl, place⟩
      exact kept mark ⟨rfl, place⟩
  · induction await generalizing finished with
    | nil =>
      cases all
      exact .nil
    | cons here _ ih =>
      obtain ⟨d, rfl, here⟩ := here
      obtain ⟨b, rest, first, others, rfl⟩ := forall₂_cons_left_iff.mp all
      exact .cons ⟨d, rfl, first d here⟩ (ih rest others)

omit keeps in
theorem meet_done (e : Expr) (target : Ty) :
    Declares [] (fun q => ∃ e', q = .done e' ∧ ∀ ds, KeptExpr ds e → KeptExpr ds e') (r.meet (.done e) target) := by
  refine .pure ⟨_, rfl, fun ds kept => ?_⟩
  split
  · exact kept_withConverted kept _
  · exact kept

/-- What met the type of its parameter does not wait. -/
theorem meet (p : Pending) (target : Ty) :
    Declares [] (fun q => q.isDone ∧ ∀ d, p.Awaits d → q.Awaits d) (r.meet p target) := by
  cases p with
  | done e =>
    refine (meet_done e target).mono fun q ⟨e', hq, same⟩ => ?_
    cases hq
    exact ⟨rfl, fun d => same d.resolved⟩
  | lambda mark l =>
    refine (keeps.lambda l (some target)).after fun form kept => .pure ⟨rfl, ?_⟩
    rintro d ⟨rfl, place⟩
    exact kept (mark.typed (some target) (some target)) ⟨rfl, by rwa [Mark.place_typed]⟩

/-- A bound call: its arguments wait or not, and its receiver has the lambdas of its draft. -/
structure Holds (ds : List (Option Draft)) (receiver : List Draft) (c : BoundCall) : Prop where
  args : AwaitAll ds c.args
  receiver : Kept receiver (lambdasOf c.receiver)

/-- The argument at a place does not wait. -/
def IsDone (c : BoundCall) (i : Nat) : Prop := ∀ a, c.args[i]? = some a → a.value.isDone

variable {c : BoundCall} {d : Draft} {kind : NodeKind}

/-- Every argument whose place is in a list is done after the list. -/
theorem meetAll (target : Ty) (slots : List Slot) {receiver : List Draft} (holds : Holds ds receiver c) :
    Declares [] (fun c' => Holds ds receiver c' ∧ ∀ i, IsDone c i ∨ .arg i ∈ slots → IsDone c' i)
      (r.meetAll target slots c) := by
  induction slots generalizing c with
  | nil => exact .pure ⟨holds, fun i done => done.resolve_right nofun⟩
  | cons slot slots ih =>
    cases slot with
    | receiver =>
      unfold Resolver.meetAll
      have kept := holds.receiver
      split
      case' h_1 e given =>
        rw [given, lambdasOf_some] at kept
        refine (meet_done e target).after fun q ⟨e', hq, same⟩ => ?_
        cases hq
        replace kept : Kept receiver (lambdasOf (some e')) := (lambdasOf_some e').symm ▸ same receiver kept
      case' h_2 given => rw [given] at kept
      all_goals
        refine (ih (c := ⟨c.args, _, c.env⟩) ⟨by exact holds.args, kept⟩).mono fun c' ⟨held, done⟩ => ?_
        refine ⟨held, fun i isDone => done i ?_⟩
        exact isDone.imp_right fun mem => by simpa using mem
    | arg i =>
      unfold Resolver.meetAll
      split
      · next missing =>
        refine (ih holds).mono fun c' ⟨held, done⟩ => ⟨held, fun j isDone => done j ?_⟩
        rcases isDone with isDone | mem
        · exact .inl isDone
        · rcases mem_cons.mp mem with same | mem
          · cases same
            exact .inl fun a here => nomatch missing.symm.trans here
          · exact .inr mem
      · next a here =>
        refine (keeps.meet a.value target).after fun value ⟨isDone, same⟩ => ?_
        have held : Holds ds receiver { c with args := c.args.set i { a with value } } :=
          ⟨holds.args.set here same, holds.receiver⟩
        refine (ih held).mono fun c' ⟨held, done⟩ => ⟨held, fun j earlier => done j ?_⟩
        have set (j : Nat) (before : IsDone c j ∨ j = i) : IsDone { c with args := c.args.set i { a with value } } j := by
          intro b hb
          by_cases same : i = j
          · cases same
            rw [getElem?_set_self (List.getElem?_eq_some_iff.mp here).1] at hb
            cases hb
            exact isDone
          · rw [getElem?_set_ne same] at hb
            exact before.resolve_right (fun there => same there.symm) b hb
        rcases earlier with isDone | mem
        · exact .inl (set j (.inl isDone))
        · rcases mem_cons.mp mem with same | mem
          · cases same
            exact .inl (set i (.inr rfl))
          · exact .inr mem

theorem meetBounds (env : TypeEnv) (bounds : List (Bound Slot)) {receiver : List Draft} (holds : Holds ds receiver c) :
    Declares [] (fun c' => Holds ds receiver c' ∧
        ∀ i, (IsDone c i ∨ ∃ b ∈ bounds, b.source.isActual ∧ .arg i ∈ b.args) → IsDone c' i) (r.meetBounds env bounds c) := by
  induction bounds generalizing c with
  | nil => exact .pure ⟨holds, fun i done => done.resolve_right fun ⟨_, mem, _⟩ => absurd mem not_mem_nil⟩
  | cons b bounds ih =>
    refine .ite (fun isActual => .behind fun target => ?_) fun isSupplied => ?_
    · refine (keeps.meetAll _ b.args holds).after fun c' ⟨held, met⟩ => (ih held).mono fun c'' ⟨kept, done⟩ => ?_
      refine ⟨kept, fun i earlier => done i ?_⟩
      rcases earlier with isDone | ⟨b', mem, isActual, slot⟩
      · exact .inl (met i (.inl isDone))
      · rcases mem_cons.mp mem with rfl | mem
        · exact .inl (met i (.inr slot))
        · exact .inr ⟨b', mem, isActual, slot⟩
    · refine (ih holds).mono fun c' ⟨kept, done⟩ => ⟨kept, fun i earlier => done i (earlier.imp_right ?_)⟩
      rintro ⟨b', mem, isActual, slot⟩
      rcases mem_cons.mp mem with rfl | mem
      · exact absurd isActual isSupplied
      · exact ⟨b', mem, isActual, slot⟩

/-- **After binding no argument waits.** -/
theorem bindArguments (method : Symbol) (place : Position) (typeArgs : List Ty) (env : TypeEnv) {receiver : Option Expr}
    {ofReceiver : List Draft} (await : AwaitAll ds args) (kept : Kept ofReceiver (lambdasOf receiver)) :
    Declares [] (fun c => KeptAll ds (bareArguments c.args) ∧ Kept ofReceiver (lambdasOf c.receiver))
      (r.bindArguments method place typeArgs env receiver args) := by
  refine .behind fun w => (Declares.lift _).after fun bounds bound => ?_
  refine (keeps.meetBounds _ bounds ⟨await, kept⟩).mono fun c ⟨holds, done⟩ => ⟨?_, holds.receiver⟩
  refine holds.args.bareArguments fun i a here => done i (.inr ?_) a here
  refine arg_mem_of_bindTo bound ?_
  rw [← await.length_eq, holds.args.length_eq]
  exact (List.getElem?_eq_some_iff.mp here).1

theorem bindStatic (method : Symbol) (place : Position) (typeArgs : List Ty) (env : TypeEnv) (await : AwaitAll ds args) :
    Declares [] (fun c => KeptAll ds (bareArguments c.args)) (r.bindArguments method place typeArgs env none args) :=
  (keeps.bindArguments method place typeArgs env await (.nil : Kept [] (lambdasOf none))).mono fun _ ⟨all, _⟩ => all

omit keeps in
/-- What names a type declares nothing and has no lambdas. -/
theorem typeTarget? (d : Draft) :
    Declares [] (fun x => ∀ e, x = some e → d.declared = [] ∧ KeptExpr d.resolved e) (typeTarget? d) := by
  have none {x : Option Expr} (missing : x = none) : ∀ e, x = some e → d.declared = [] ∧ KeptExpr d.resolved e := by
    rw [missing]
    nofun
  unfold Resolver.typeTarget?
  split
  · exact .pure (none rfl)
  · next name isDotted =>
    have dotted : d.dotted?.isSome := by rw [isDotted]; rfl
    refine .behind fun here => .behind fun found => .ite (fun _ => .pure (none rfl)) fun _ => ?_
    refine .either (P := fun _ => True) (fun _ => .steady fun _ _ _ _ _ => trivial)
      (fun _ => .steady fun _ _ _ _ _ => trivial) fun t _ => ?_
    dsimp only
    split
    · exact .pure (none rfl)
    · refine .behind fun mark => .pure ?_
      rintro e ⟨⟩
      rw [Draft.resolved_of_dotted d dotted]
      refine ⟨Draft.declared_of_dotted d dotted, ?_⟩
      split <;> exact .nil

/-- The target of a member access. -/
theorem receiver (d : Option Draft) :
    Declares (declaredOpt d) (fun x => Kept (resolvedOpt d) (lambdasOf x.1)) (r.receiver d) := by
  cases d with
  | none => exact .pure .nil
  | some d =>
    refine .behind fun found => .either (fun _ => typeTarget? d) (fun _ => .pure nofun) fun asType kept => ?_
    dsimp only
    split
    · next e =>
      obtain ⟨bare, kept⟩ := kept e rfl
      rw [declaredOpt, bare]
      exact .pure ((lambdasOf_some e).symm ▸ kept)
    · exact (keeps.expr d none).before fun e kept => .pure ((lambdasOf_some e).symm ▸ kept)

/-- What a call is bound to has the lambdas of its draft, with any receiver that has those of its own. -/
def HasTarget (d : Draft) (c : Callee) : Prop :=
  ∃ ofReceiver, Kept ofReceiver (lambdasOf c.receiver) ∧
    ∀ e, Kept ofReceiver (lambdasOf e) → KeptExpr d.resolved (c.target e)

theorem callee (target : Draft) : Declares target.declared (HasTarget target) (r.callee target) := by
  refine .behind fun here => .behind fun found => ?_
  refine .either (P := fun own => own ≠ [] → target.kind = "identifier") (fun shape => .pure fun _ => ?_)
    (fun _ => .pure (absurd rfl)) fun own isName => ?_
  · simp only [Bool.and_eq_true, decide_eq_true_eq] at shape
    exact shape.1
  · refine .ite (fun some => ?_) fun _ => .ite (fun isMember => ?_) fun _ => ?_
    · have dotted : target.dotted?.isSome := Draft.dotted_of_identifier (isName (by simpa using some))
      rw [Draft.declared_of_dotted target dotted]
      exact .behind fun mark => .pure ⟨[], .nil, fun _ _ => Draft.resolved_of_dotted target dotted ▸ .nil⟩
    · have known : NodeKind.ofText? target.kind = some .member := by rw [isMember]; rfl
      have names : target.declared = declaredOpt target.target := by
        obtain ⟨⟩ := target
        cases isMember
        rfl
      have inMember (m : Mark) {e : Option Expr} (kept : Kept (resolvedOpt target.target) (lambdasOf e)) :
          KeptExpr target.resolved (.node m (.member e)) := by
        have parts : target.resolved = resolvedOpt target.target := by
          rw [Draft.resolved_eq known]
          simp [NodeKind.parts, Draft.resolvedPart]
        exact parts ▸ kept_operand kept m (by simp [ExprForm.kind]) rfl
      rw [names]
      refine (keeps.receiver target.target).before ?_
      rintro ⟨recv, throughType⟩ kept
      refine .behind fun mark => ?_
      refine .ite (fun _ => .behind fun x => .pure ?_) fun _ => .ite (fun _ => .pure ?_) fun _ => .pure ?_
      · exact ⟨[], .nil, fun _ _ => inMember _ kept⟩
      · exact ⟨[], .nil, fun _ _ => inMember _ kept⟩
      · exact ⟨_, kept, fun _ after => inMember _ after⟩
    · exact (keeps.expr target none).before fun e kept => .pure ⟨[], .nil, fun _ _ => kept⟩

variable (mark : Mark)

theorem delegateCall (typeArgs : List Ty) {target : Expr} {ofTarget : List Draft}
    (kept : KeptExpr ofTarget target) (await : AwaitAll ds args) :
    Declares [] (KeptForm (ofTarget ++ resolvedAll ds)) (r.delegateCall mark typeArgs target args) := by
  refine .behind fun w => ?_
  split
  case' h_1 => refine (keeps.finishPending await).after fun args all => .pure ?_
  case' h_2 => refine (keeps.bindStatic _ _ _ _ await).after fun c all => .behind fun _ => .pure ?_
  all_goals
    rw [KeptForm, KeptExpr, lambdas_call]
    exact rel_append kept all.kept

theorem invocation (d : Draft) :
    Declares (declaredAll d.args ++ declaredOpt d.target) (KeptForm (resolvedOpt d.target ++ resolvedAll d.args))
      (r.invocation mark d) := by
  refine .behind fun typeArgs => (keeps.arguments d.args).bind fun args fresh => ?_
  have await := fresh.await
  split
  · exact .fail _ _
  · next target given =>
    rw [given]
    refine (keeps.callee target).before ?_
    rintro callee ⟨ofReceiver, receiver, inTarget⟩
    refine .ite (fun _ => keeps.delegateCall mark typeArgs (inTarget _ receiver) await) fun _ => .behind fun found => ?_
    split
    · refine (keeps.finishPending await).after fun args all => .pure ?_
      rw [KeptForm, KeptExpr, lambdas_call]
      exact rel_append (inTarget _ receiver) all.kept
    · refine (keeps.bindArguments _ _ _ _ await receiver).after ?_
      rintro c ⟨all, after⟩
      refine .behind fun _ => .behind fun _ => .behind fun _ => .pure ?_
      rw [KeptForm, KeptExpr, lambdas_call]
      exact rel_append (kept_withSymbol (inTarget _ after) _) all.kept

/-! ### Creations -/

theorem memberElement (t : Ty) (d left : Draft) :
    Declares (declaredOpt d.right) (KeptExpr (resolvedOpt d.right)) (r.memberElement t d left) := by
  refine .behind fun w => .behind fun lt => .behind fun leftMark => ?_
  refine (keeps.exprOpt d.right _).before fun right kept => .behind fun mark => .pure ?_
  rw [KeptExpr, lambdas_assign]
  exact kept

omit keeps in
theorem convertValues (env : TypeEnv) (bounds : List (Bound Slot)) {ds : List Draft} {values : List (Option Expr)}
    (kept : Kept ds (values.flatMap lambdasOf)) :
    Declares [] (fun values => Kept ds (values.flatMap lambdasOf)) (addElement.convertValues env bounds values) := by
  induction bounds generalizing values with
  | nil => exact .pure kept
  | cons b bounds ih =>
    refine .ite (fun _ => .behind fun target => ih ?_) fun _ => ih kept
    generalize b.args = slots
    induction slots generalizing values with
    | nil => exact kept
    | cons slot slots step =>
      cases slot with
      | receiver => exact step kept
      | arg i => exact step (kept_modify (fun _ _ kept => kept_convert kept _ _) kept i)

theorem addElement (t : Ty) (d : Draft) : Declares d.declared (KeptExpr d.resolved) (r.addElement t d) := by
  have parts : d.resolved = resolvedAll (if d.kind = "initializer" then d.elements else [some d]) ∧
      d.declared = declaredAll (if d.kind = "initializer" then d.elements else [some d]) := by
    split
    · next isInitializer =>
      have known : NodeKind.ofText? d.kind = some .initializer := by rw [isInitializer]; rfl
      rw [Draft.resolved_eq known]
      refine ⟨by simp [NodeKind.parts, Draft.resolvedPart], ?_⟩
      obtain ⟨⟩ := d
      cases isInitializer
      rfl
    · exact ⟨(append_nil _).symm, (append_nil _).symm⟩
  rw [parts.2]
  refine (keeps.mapM_exprOpt _ none).before fun values kept => ?_
  rw [← parts.1] at kept
  refine .behind fun mark => .behind fun w => .behind fun found => ?_
  split
  case' h_1 => refine .pure ?_
  case' h_2 => refine .behind fun _ => .behind fun _ => (convertValues _ _ kept).after fun values kept => .pure ?_
  all_goals
    rw [KeptExpr, lambdas_expr _ (by simp [ExprForm.kind]), Node.exprChildren, flatMap_ofExprs]
    exact kept

theorem initializerElement (t : Ty) (d : Draft) : Declares d.declared (KeptExpr d.resolved) (r.initializerElement t d) := by
  unfold Resolver.initializerElement
  split
  · next left given =>
    refine .ite (fun shape => ?_) fun _ => keeps.addElement t d
    simp only [Bool.and_eq_true, decide_eq_true_eq] at shape
    have dotted : left.dotted?.isSome := Draft.dotted_of_identifier shape.2
    have parts : d.resolved = resolvedOpt d.right := by
      have known : NodeKind.ofText? d.kind = some .assign := by rw [shape.1]; rfl
      rw [Draft.resolved_eq known]
      simp [NodeKind.parts, Draft.resolvedPart, given, lambdasInOpt, Draft.resolved_of_dotted left dotted]
    have names : d.declared = declaredOpt d.right := by
      obtain ⟨⟩ := d
      cases shape.1
      cases given
      exact congrArg (· ++ _) (Draft.declared_of_dotted left dotted)
    rw [parts, names]
    exact keeps.memberElement t d left
  · exact keeps.addElement t d

theorem initializerElements (t : Ty) (ds : List (Option Draft)) :
    Declares (declaredAll ds) (fun es => Kept (resolvedAll ds) (es.flatMap fun e => (Node.expr e).lambdas))
      (r.initializerElements t ds) := by
  induction ds with
  | nil => exact .pure .nil
  | cons d ds ih =>
    cases d with
    | none => exact .crash
    | some d =>
      exact (keeps.initializerElement t d).bind fun e kept => ih.before fun es rest => .pure (rel_append kept rest)

theorem creation (d : Draft) :
    Declares (declaredAll d.args ++ declaredAll d.elements) (KeptForm (resolvedAll d.args ++ resolvedAll d.elements))
      (r.creation mark d) := by
  refine .behind fun t => (keeps.arguments d.args).bind fun args fresh => .behind fun w => .behind fun found => ?_
  have await := fresh.await
  dsimp only
  split
  case' h_1 => refine (keeps.bindStatic _ _ _ _ await).after fun c all => ?_
  case' h_2 => refine (keeps.finishPending await).after fun args all => ?_
  all_goals
    refine (keeps.initializerElements t d.elements).before fun elements kept => .pure ?_
    rw [KeptForm, KeptExpr, lambdas_expr _ (by simp [ExprForm.kind]), Node.exprChildren, flatMap_append, flatMap_ofArgs,
      flatMap_map]
    exact rel_append all.kept kept

theorem arrayCreation (d : Draft) (m : Mark) : Declares (declaredAll d.args ++ declaredAll d.elements)
      (fun x => KeptExpr (resolvedAll d.args ++ resolvedAll d.elements) (.node m x.1)) (r.arrayCreation d) := by
  refine .behind fun t => (keeps.mapM_exprOpt d.args _).bind fun sizes kept => ?_
  refine (keeps.mapM_exprOpt d.elements _).before fun elements more => .pure ?_
  rw [KeptExpr, lambdas_expr m (by simp [ExprForm.kind]), Node.exprChildren, flatMap_append, flatMap_ofExprs, flatMap_ofExprs]
  exact rel_append kept more

/-! ### Operators and the rest -/

theorem binary (d : Draft) :
    Declares (declaredOpt d.left ++ declaredOpt d.right) (KeptForm (resolvedOpt d.left ++ resolvedOpt d.right))
      (r.binary mark d) := by
  have whole (m : Mark) {left right : Option Expr} (kept : Kept (resolvedOpt d.left) (lambdasOf left))
      (more : Kept (resolvedOpt d.right) (lambdasOf right)) :
      KeptExpr (resolvedOpt d.left ++ resolvedOpt d.right) (.node m (.binary left right)) := by
    rw [KeptExpr, lambdas_expr m (by simp [ExprForm.kind]), Node.exprChildren, flatMap_ofExprs]
    simpa using rel_append kept more
  refine (keeps.exprOpt d.left none).bind fun left kept => (keeps.exprOpt d.right none).before fun right more => ?_
  refine .behind fun found => ?_
  split
  · next s =>
    refine .pure (whole _ ?_ ?_)
    · rcases s.parameters with _ | ⟨p, ps⟩
      · exact kept
      · exact kept_convert kept _ _
    · rcases s.parameters with _ | ⟨p, _ | ⟨q, ps⟩⟩
      · exact more
      · exact more
      · exact kept_convert more _ _
  · exact .pure (whole mark kept more)

theorem unary (d : Draft) :
    Declares (declaredOpt d.target) (KeptForm (resolvedOpt d.target)) (r.unary mark d) := by
  refine (keeps.exprOpt d.target none).before fun operand kept => .behind fun found => ?_
  split
  · next s =>
    refine .pure (kept_operand ?_ _ (by simp [ExprForm.kind]) rfl)
    rcases s.parameters with _ | ⟨p, ps⟩
    · exact kept
    · exact kept_convert kept _ _
  · exact .pure (kept_operand kept mark (by simp [ExprForm.kind]) rfl)

theorem assignment (d : Draft) (m : Mark) : Declares (declaredOpt d.left ++ declaredOpt d.right)
      (fun x => KeptExpr (resolvedOpt d.left ++ resolvedOpt d.right) (.node m x.1)) (r.assignment d) := by
  refine (keeps.exprOpt d.left none).bind fun left kept => (keeps.exprOpt d.right _).before fun right more => .pure ?_
  rw [KeptExpr, lambdas_assign]
  exact rel_append kept more

theorem typed (kind : TypedKind) (mark : Mark) (d : Draft) (expected : Option Ty) :
    Declares (declaredOpt d.target ++ if kind = .is ∧ d.type ≠ "" ∧ d.name ≠ "" then [d.name] else [])
      (KeptForm (resolvedOpt d.target)) (r.typed kind mark d expected) := by
  have other {t operand} : (ExprForm.typed kind t operand).kind ≠ .lambda := by cases kind <;> simp [ExprForm.kind, TypedKind.nodeKind]
  refine .givenType d.type d.line fun type given => (keeps.exprOpt d.target none).bind fun operand kept => ?_
  cases kind with
  | is =>
    cases type with
    | none =>
      rw [if_neg fun declares => declares.2.1 (given.mp rfl)]
      exact .pure (kept_operand kept _ other rfl)
    | some t =>
      have typed : d.type ≠ "" := by
        intro missing
        cases given.mpr missing
      refine .ite (fun unnamed => ?_) fun named => ?_
      · rw [if_neg fun declares => declares.2.2 unnamed]
        exact .pure (kept_operand kept _ other rfl)
      · rw [if_pos ⟨rfl, typed, named⟩]
        exact (Declares.declare _).before fun _ _ => .pure (kept_operand kept _ other rfl)
  | typeOf => exact .behind fun _ => .pure (kept_operand kept _ other rfl)
  | cast | as | default => exact .pure (kept_operand kept _ other rfl)

theorem conditional (d : Draft) (m : Mark) : Declares (declaredOpt d.cond ++ (declaredOpt d.yes ++ declaredOpt d.no))
      (fun x => KeptExpr (resolvedOpt d.cond ++ (resolvedOpt d.yes ++ resolvedOpt d.no)) (.node m x.1)) (r.conditional d) := by
  refine (keeps.exprOpt d.cond _).bind fun cond kept => (keeps.exprOpt d.yes none).bind fun yes more => ?_
  refine (keeps.exprOpt d.no none).before fun no rest => .pure ?_
  rw [KeptExpr, lambdas_expr m (by simp [ExprForm.kind]), Node.exprChildren, flatMap_ofExprs]
  simpa using rel_append kept (rel_append (kept_convert more (·.static.isSome) _) (kept_convert rest (·.static.isSome) _))

theorem elementAccess (d : Draft) :
    Declares (declaredOpt d.target ++ declaredAll d.args) (KeptForm (resolvedOpt d.target ++ resolvedAll d.args))
      (r.elementAccess mark d) := by
  have whole (m : Mark) {target : Option Expr} {args : List (Argument Expr)} (kept : Kept (resolvedOpt d.target) (lambdasOf target))
      (all : KeptAll d.args args) : KeptExpr (resolvedOpt d.target ++ resolvedAll d.args) (.node m (.index target args)) := by
    rw [KeptExpr, lambdas_expr m (by simp [ExprForm.kind]), Node.exprChildren, flatMap_append, flatMap_ofExprs,
      flatMap_ofArgs, flatMap_singleton]
    exact rel_append kept all.kept
  refine (keeps.exprOpt d.target none).bind fun target kept => (keeps.arguments d.args).before fun args fresh => ?_
  refine (keeps.finishPending fresh.await).after fun args all => ?_
  split
  · exact .pure (whole mark kept all)
  · exact .pure (whole mark kept all)
  · exact .pure (whole mark kept all)
  · refine .behind fun w => .behind fun found => ?_
    split
    · exact .pure (whole mark kept all)
    · have again : AwaitAll d.args (args.map fun a => { a with value := Pending.done a.value }) :=
        forall₂_map_right_iff.mpr all
      exact (keeps.bindArguments _ _ _ _ again kept).after fun c bound => .behind fun _ => .pure (whole _ bound.2 bound.1)

theorem anonymousElements (ds : List (Option Draft)) :
    Declares (declaredRight ds) (fun es => Kept (lambdasInAll .resolved true ds) (es.flatMap fun e => (Node.expr e).lambdas))
      (r.anonymousElements ds) := by
  induction ds with
  | nil => exact .pure .nil
  | cons d ds ih =>
    cases d with
    | none => exact .crash
    | some d =>
      unfold Resolver.anonymousElements
      split
      · next left isAssign given =>
        have parts : d.lambdasIn .resolved true = resolvedOpt d.right := by
          obtain ⟨⟩ := d
          have known : NodeKind.ofText? "assign" = some .assign := rfl
          cases eq_of_beq isAssign
          simp [Draft.lambdasIn, known, View.resolved, NodeKind.parts]
        have names : declaredRight (some d :: ds) = declaredOpt d.right ++ declaredRight ds := by
          obtain ⟨⟩ := d
          rfl
        rw [names]
        refine .behind fun leftMark => (keeps.exprOpt d.right none).bind fun right kept => .behind fun mark => ?_
        refine ih.before fun es rest => .pure ?_
        rw [lambdasInAll, parts, flatMap_cons, lambdas_assign]
        exact rel_append kept rest
      · exact .fail _ _

/-- **An expression has the lambdas of its draft** and declares the names of its level. -/
theorem exprOfKind (known : NodeKind.ofText? d.kind = some kind) (expected : Option Ty) :
    Declares d.declared (KeptForm d.resolved) (r.exprOfKind kind d expected) := by
  have parts := Draft.resolved_eq known
  obtain ⟨⟩ := d
  refine (declares_markOf _).after fun mark place => ?_
  rw [Draft.declared, known]
  cases kind <;>
    simp only [NodeKind.parts, Draft.resolvedPart, flatMap_cons, flatMap_nil, append_nil,
      reduceCtorEq, if_false] at parts
  all_goals rw [parts]
  case literal => exact .behind fun _ => .pure .nil
  case identifier => exact .behind fun _ => .pure .nil
  case member =>
    exact (keeps.receiver _).before fun _ kept => .behind fun _ => .pure (kept_operand kept _ (by simp [ExprForm.kind]) rfl)
  case invocation => exact keeps.invocation mark _
  case creation => exact keeps.creation mark _
  case arrayCreation => exact (keeps.arrayCreation _ mark).before fun _ kept => .pure kept
  case binary => exact keeps.binary mark _
  case unary => exact keeps.unary mark _
  case assign => exact (keeps.assignment _ mark).before fun _ kept => .pure kept
  case is => simpa using keeps.typed .is mark _ expected
  case cast => simpa using keeps.typed .cast mark _ expected
  case as => simpa using keeps.typed .as mark _ expected
  case default => simpa using keeps.typed .default mark _ expected
  case typeOf => simpa using keeps.typed .typeOf mark _ expected
  case conditional => exact (keeps.conditional _ mark).before fun _ kept => .pure kept
  case paren =>
    exact (keeps.exprOpt _ none).before fun inner kept => .pure (kept_operand kept mark (by simp [ExprForm.kind]) rfl)
  case this => exact .behind fun _ => .pure .nil
  case base =>
    refine .behind fun here => ?_
    dsimp only
    split
    · exact .crash
    · exact .behind fun _ => .pure .nil
  case index => exact keeps.elementAccess mark _
  case lambda =>
    rw [← parts]
    exact (keeps.lambda _ expected).after fun form kept => .pure (kept mark ⟨rfl, known, place⟩)
  case anonymous =>
    refine (keeps.anonymousElements _).before fun es kept => .pure ?_
    rw [KeptForm, KeptExpr, lambdas_expr _ (by simp [ExprForm.kind]), Node.exprChildren, flatMap_map]
    exact kept
  all_goals exact .fail _ _

theorem exprStep (d : Draft) (expected : Option Ty) : Declares d.declared (KeptExpr d.resolved) (r.exprStep d expected) := by
  have known {d : Draft} (notNull : d.kind ≠ "null") : Declares d.declared (KeptExpr d.resolved) (r.exprStep d expected) := by
    rw [Resolver.exprStep, if_neg notNull]
    split
    · exact .fail _ _
    · next kind known =>
      refine (keeps.exprOfKind known expected).before ?_
      rintro ⟨mark, form, static⟩ kept
      exact .pure (kept_mapMark (f := (·.typed static expected)) (fun m => m.place_typed static expected) _ kept)
  by_cases isNull : d.kind = "null"
  · have none : d.resolved = [] ∧ d.declared = [] := by
      obtain ⟨⟩ := d
      cases isNull
      exact ⟨rfl, rfl⟩
    rw [Resolver.exprStep, if_pos isNull, none.1, none.2]
    exact known (d := { kind := "literal", line := d.line, column := d.column }) (by simp)
  · exact known isNull

theorem stmts (ds : List (Option Draft)) :
    Declares (declaredAll ds) (fun ss => Kept (resolvedAll ds) (ss.flatMap fun s => (Node.stmt s).lambdas)) (r.stmts ds) := by
  induction ds with
  | nil => exact .pure .nil
  | cons d ds ih =>
    cases d with
    | none => exact .crash
    | some d => exact (keeps.stmt d).bind fun s kept => ih.before fun ss rest => .pure (rel_append kept rest)

theorem stmtOpt (d : Option Draft) : Declares [] (fun s => Kept (resolvedOpt d) (lambdasOfStmt s)) (r.stmtOpt d) := by
  cases d with
  | none => exact .pure .nil
  | some d =>
    exact (Declares.nested (keeps.stmt d)).before fun s kept => .pure ((lambdasOfStmt_some s).symm ▸ kept)

theorem localDeclaration (d : Draft) :
    Declares (declaredOpt d.value ++ [d.name]) (KeptStmt (resolvedOpt d.value)) (r.localDeclaration mark d) := by
  refine .behind fun type => (keeps.exprOpt d.value type).bind fun value kept => ?_
  split
  · exact .fail _ _
  · exact (Declares.declare _).before fun _ _ => .pure (kept_value kept _ rfl)

theorem foreach (d : Draft) :
    Declares (declaredOpt d.value) (KeptStmt (resolvedOpt d.value ++ resolvedOpt d.body)) (r.foreach mark d) := by
  refine (keeps.exprOpt d.value none).before fun collection kept => .behind fun type => .behind fun w => ?_
  refine (Declares.nested ((Declares.declare _).before fun _ _ => keeps.stmtOpt d.body)).before fun body inside => .pure ?_
  rw [KeptStmt, lambdas_stmt, Node.stmtChildren, flatMap_append, flatMap_ofExprs, flatMap_singleton, flatMap_body]
  exact rel_append kept inside

theorem handlers (line : Int) (hs : List (Option (HandlerDraft Draft))) :
    Declares [] (fun handlers => Kept (lambdasInHandlers .resolved hs) (handlers.flatMap fun h => lambdasOfStmt h.body))
      (r.handlers line hs) := by
  induction hs with
  | nil => exact .pure .nil
  | cons h hs ih =>
    cases h with
    | none => exact .crash
    | some h =>
      refine .givenType h.type line fun type _ => Declares.after ?_ fun body kept => ih.before fun rest others =>
        .pure (rel_append kept others)
      by_cases named : h.name = ""
      · rw [if_neg (not_not_intro named)]
        exact .nested (keeps.stmtOpt h.body)
      · rw [if_pos named]
        exact .nested ((Declares.declare _).before fun _ _ => keeps.stmtOpt h.body)

/-- **A statement has the lambdas of its draft** and declares the names of its level. -/
theorem stmtOfKind (known : NodeKind.ofText? d.kind = some kind) :
    Declares d.declared (KeptStmt d.resolved) (r.stmtOfKind kind d) := by
  have parts := Draft.resolved_eq known
  obtain ⟨⟩ := d
  refine .behind fun mark => ?_
  rw [Draft.declared, known]
  cases kind <;>
    simp only [NodeKind.parts, flatMap_cons, flatMap_nil, append_nil] at parts
  all_goals rw [parts]
  case block =>
    refine (Declares.nested (keeps.stmts _)).before fun ss kept => .pure ?_
    rw [KeptStmt, lambdas_stmt, Node.stmtChildren, flatMap_map]
    exact kept
  case expr => exact (keeps.exprOpt _ none).before fun value kept => .pure (kept_value kept mark rfl)
  case «local» => exact keeps.localDeclaration mark _
  case returns => exact .behind fun l => (keeps.exprOpt _ _).before fun value kept => .pure (kept_value kept mark rfl)
  case ifElse =>
    refine (keeps.exprOpt _ _).before fun cond kept => (keeps.stmtOpt _).after fun yes more =>
      (keeps.stmtOpt _).after fun no rest => .pure ?_
    rw [KeptStmt, lambdas_stmt, Node.stmtChildren, flatMap_append, flatMap_append, flatMap_ofExprs,
      flatMap_singleton, flatMap_body, flatMap_body, append_assoc]
    exact rel_append kept (rel_append more rest)
  case whileLoop =>
    refine (keeps.exprOpt _ _).before fun cond kept => (keeps.stmtOpt _).after fun body more => .pure ?_
    rw [KeptStmt, lambdas_stmt, Node.stmtChildren, flatMap_append, flatMap_ofExprs, flatMap_singleton, flatMap_body]
    exact rel_append kept more
  case forLoop =>
    refine .nested ((keeps.stmts _).bind fun init first => (keeps.exprOpt _ _).bind fun cond kept =>
      (keeps.mapM_exprOpt _ none).before fun post more => (keeps.stmtOpt _).after fun body rest => .pure ?_)
    rw [KeptStmt, lambdas_stmt, Node.stmtChildren, flatMap_append, flatMap_append, flatMap_append,
      flatMap_map, flatMap_ofExprs, flatMap_ofExprs, flatMap_singleton, flatMap_body, append_assoc,
      append_assoc]
    exact rel_append first (rel_append kept (rel_append more rest))
  case foreach => exact keeps.foreach mark _
  case breakLoop => exact .pure .nil
  case continueLoop => exact .pure .nil
  case throws => exact (keeps.exprOpt _ none).before fun value kept => .pure (kept_value kept mark rfl)
  case tryCatch =>
    refine (keeps.stmtOpt _).after fun body first => (keeps.handlers _ _).after fun handlers more =>
      (keeps.stmtOpt _).after fun finalizer rest => .pure ?_
    rw [KeptStmt, lambdas_stmt, Node.stmtChildren, flatMap_append, flatMap_append, flatMap_assoc, append_assoc]
    simp only [flatMap_body]
    exact rel_append first (rel_append more rest)
  case yields => exact (keeps.exprOpt _ none).before fun value kept => .pure (kept_value kept mark rfl)
  all_goals exact .crash

theorem stmtStep (d : Draft) : Declares d.declared (KeptStmt d.resolved) (r.stmtStep d) := by
  unfold Resolver.stmtStep
  split
  · next kind known => exact keeps.stmtOfKind (Option.filter_eq_some_iff.mp known).1
  · exact (keeps.expr d none).before fun e kept => .pure (kept_value ((lambdasOf_some e).symm ▸ kept) _ rfl)

end KeepsLambdas

/-- **Every resolver keeps the lambdas and the levels**, by the number of levels that it goes down. -/
theorem within_keepsLambdas (n : Nat) : (within n).KeepsLambdas := by
  induction n with
  | zero => exact ⟨fun _ _ => .crash, fun _ => .crash⟩
  | succ n ih => exact ⟨ih.exprStep, ih.stmtStep⟩

end Resolver

end Polyglot
