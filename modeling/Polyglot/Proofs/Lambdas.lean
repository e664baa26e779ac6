import Polyglot.Proofs.Basic
import Polyglot.Proofs.Effects

/-!
# Lambdas of drafts and of trees

The lambdas of a draft are listed from left to right, each before those inside it; so are the lambdas of a tree. A tree has kept
the lambdas of a draft when the two lists fit. Two lists of a draft are told apart: every lambda that is written in it, and the
lambdas in the parts that a draft of its kind has.
-/

namespace Polyglot

open List

/-! ## The lambdas of a draft -/

/-- The parts of a draft. -/
inductive Part where
  | target
  | left
  | right
  | args
  | elements
  | init
  | cond
  | yes
  | no
  | post
  | value
  | body
  | statements
  | parameters
  | handlers
  | finalizer
deriving Repr, DecidableEq

def NodeKind.parts : NodeKind → List Part
  | literal | identifier | this | base | breakLoop | continueLoop => []
  | member | unary | paren | cast | is | as | default | typeOf => [.target]
  | invocation | index => [.target, .args]
  | creation | arrayCreation => [.args, .elements]
  | initializer | anonymous => [.elements]
  | binary | assign => [.left, .right]
  | conditional | ifElse => [.cond, .yes, .no]
  | lambda => [.body]
  | block => [.statements]
  | expr | «local» | returns | throws | yields => [.value]
  | whileLoop => [.cond, .body]
  | forLoop => [.init, .cond, .post, .body]
  | foreach => [.value, .body]
  | tryCatch => [.body, .handlers, .finalizer]

/-- Which parts of a draft are looked at: by its kind, and by whether it is a member of an anonymous object. -/
abbrev View := Bool → Option NodeKind → Part → Bool

/-- Every part of every draft. -/
def View.all : View := fun _ _ _ => true

/-- The parts that are resolved. What stands left in a member of an anonymous object is its name only. -/
def View.resolved : View := fun isMember kind p => kind.any (p ∈ ·.parts) && !(isMember && p = .left)

mutual

/-- **The lambdas in a draft**, each before those inside it. -/
def Draft.lambdasIn (view : View) (isMember : Bool) : Draft → List Draft
  | d@{ kind, target, left, right, args, elements, init, cond, yes, no, post, value, body, statements, parameters, handlers,
        finalizer, .. } =>
    let own := NodeKind.ofText? kind
    let inside (p : Part) (ds : List Draft) := if view isMember own p then ds else []
    (if own = some .lambda then [d] else []) ++
      (inside .target (lambdasInOpt view target) ++ (inside .left (lambdasInOpt view left) ++
      (inside .right (lambdasInOpt view right) ++ (inside .args (lambdasInAll view false args) ++
      (inside .elements (lambdasInAll view (own = some .anonymous) elements) ++
      (inside .init (lambdasInAll view false init) ++ (inside .cond (lambdasInOpt view cond) ++
      (inside .yes (lambdasInOpt view yes) ++ (inside .no (lambdasInOpt view no) ++
      (inside .post (lambdasInAll view false post) ++ (inside .value (lambdasInOpt view value) ++
      (inside .body (lambdasInOpt view body) ++ (inside .statements (lambdasInAll view false statements) ++
      (inside .parameters (lambdasInDefaults view parameters) ++ (inside .handlers (lambdasInHandlers view handlers) ++
      inside .finalizer (lambdasInOpt view finalizer))))))))))))))))

def lambdasInOpt (view : View) : Option Draft → List Draft
  | none => []
  | some d => d.lambdasIn view false

def lambdasInAll (view : View) (areMembers : Bool) : List (Option Draft) → List Draft
  | [] => []
  | none :: ds => lambdasInAll view areMembers ds
  | some d :: ds => d.lambdasIn view areMembers ++ lambdasInAll view areMembers ds

def lambdasInDefaults (view : View) : List (Option (ParameterDraft Draft)) → List Draft
  | [] => []
  | none :: ps => lambdasInDefaults view ps
  | some ⟨_, _, _, _, _, _, d, _⟩ :: ps => lambdasInOpt view d ++ lambdasInDefaults view ps

def lambdasInHandlers (view : View) : List (Option (HandlerDraft Draft)) → List Draft
  | [] => []
  | none :: hs => lambdasInHandlers view hs
  | some ⟨_, _, d⟩ :: hs => lambdasInOpt view d ++ lambdasInHandlers view hs

end

section Views

variable {view : View}

theorem sublist_of_view {c : Bool} {ds ds' : List Draft} (sub : ds.Sublist ds') : (if c then ds else []).Sublist ds' := by
  split
  · exact sub
  · exact nil_sublist _

mutual

theorem Draft.lambdasIn_sublist (isMember : Bool) : (d : Draft) → (d.lambdasIn view isMember).Sublist (d.lambdasIn .all isMember)
  | { kind, target, left, right, args, elements, init, cond, yes, no, post, value, body, statements, parameters, handlers,
      finalizer, .. } => by
    simp only [Draft.lambdasIn]
    refine .append (.refl _) ?_
    refine .append (sublist_of_view (lambdasInOpt_sublist target)) ?_
    refine .append (sublist_of_view (lambdasInOpt_sublist left)) ?_
    refine .append (sublist_of_view (lambdasInOpt_sublist right)) ?_
    refine .append (sublist_of_view (lambdasInAll_sublist _ args)) ?_
    refine .append (sublist_of_view (lambdasInAll_sublist _ elements)) ?_
    refine .append (sublist_of_view (lambdasInAll_sublist _ init)) ?_
    refine .append (sublist_of_view (lambdasInOpt_sublist cond)) ?_
    refine .append (sublist_of_view (lambdasInOpt_sublist yes)) ?_
    refine .append (sublist_of_view (lambdasInOpt_sublist no)) ?_
    refine .append (sublist_of_view (lambdasInAll_sublist _ post)) ?_
    refine .append (sublist_of_view (lambdasInOpt_sublist value)) ?_
    refine .append (sublist_of_view (lambdasInOpt_sublist body)) ?_
    refine .append (sublist_of_view (lambdasInAll_sublist _ statements)) ?_
    refine .append (sublist_of_view (lambdasInDefaults_sublist parameters)) ?_
    exact .append (sublist_of_view (lambdasInHandlers_sublist handlers)) (sublist_of_view (lambdasInOpt_sublist finalizer))

theorem lambdasInOpt_sublist : (d : Option Draft) → (lambdasInOpt view d).Sublist (lambdasInOpt .all d)
  | none => .slnil
  | some d => d.lambdasIn_sublist false

theorem lambdasInAll_sublist (areMembers : Bool) :
    (ds : List (Option Draft)) → (lambdasInAll view areMembers ds).Sublist (lambdasInAll .all areMembers ds)
  | [] => .slnil
  | none :: ds => lambdasInAll_sublist areMembers ds
  | some d :: ds => .append (d.lambdasIn_sublist areMembers) (lambdasInAll_sublist areMembers ds)

theorem lambdasInDefaults_sublist :
    (ps : List (Option (ParameterDraft Draft))) → (lambdasInDefaults view ps).Sublist (lambdasInDefaults .all ps)
  | [] => .slnil
  | none :: ps => lambdasInDefaults_sublist ps
  | some ⟨_, _, _, _, _, _, d, _⟩ :: ps => .append (lambdasInOpt_sublist d) (lambdasInDefaults_sublist ps)

theorem lambdasInHandlers_sublist :
    (hs : List (Option (HandlerDraft Draft))) → (lambdasInHandlers view hs).Sublist (lambdasInHandlers .all hs)
  | [] => .slnil
  | none :: hs => lambdasInHandlers_sublist hs
  | some ⟨_, _, d⟩ :: hs => .append (lambdasInOpt_sublist d) (lambdasInHandlers_sublist hs)

end

end Views

/-- The lambdas that stand where drafts are resolved. -/
abbrev resolvedOpt (d : Option Draft) : List Draft := lambdasInOpt .resolved d

@[inherit_doc resolvedOpt] abbrev resolvedAll (ds : List (Option Draft)) : List Draft := lambdasInAll .resolved false ds

namespace Draft

@[inherit_doc resolvedOpt] abbrev resolved (d : Draft) : List Draft := d.lambdasIn .resolved false

def resolvedPart (d : Draft) (kind : NodeKind) : Part → List Draft
  | .target => resolvedOpt d.target
  | .left => resolvedOpt d.left
  | .right => resolvedOpt d.right
  | .args => resolvedAll d.args
  | .elements => lambdasInAll .resolved (kind = .anonymous) d.elements
  | .init => resolvedAll d.init
  | .cond => resolvedOpt d.cond
  | .yes => resolvedOpt d.yes
  | .no => resolvedOpt d.no
  | .post => resolvedAll d.post
  | .value => resolvedOpt d.value
  | .body => resolvedOpt d.body
  | .statements => resolvedAll d.statements
  | .parameters => lambdasInDefaults .resolved d.parameters
  | .handlers => lambdasInHandlers .resolved d.handlers
  | .finalizer => resolvedOpt d.finalizer

theorem resolved_eq {d : Draft} {kind : NodeKind} (known : NodeKind.ofText? d.kind = some kind) :
    d.resolved = (if kind = .lambda then [d] else []) ++ kind.parts.flatMap (d.resolvedPart kind) := by
  obtain ⟨⟩ := d
  simp only [lambdasIn, known]
  cases kind with
  | tryCatch =>
    simp only [NodeKind.parts, flatMap_cons, flatMap_nil, append_nil]
    rfl
  | _ => rfl

theorem resolved_of_dotted : (d : Draft) → d.dotted?.isSome → d.resolved = []
  | { kind, target, .. }, dotted => by
    rw [dotted?] at dotted
    split at dotted
    · next isName =>
      cases isName
      rfl
    · split at dotted
      · next isMember =>
        cases isMember
        cases target with
        | none => rfl
        | some t =>
          have rest : t.resolved = [] := resolved_of_dotted t (by simpa [dottedTarget?] using dotted)
          rw [resolved_eq (rfl : NodeKind.ofText? "member" = some .member)]
          simp [NodeKind.parts, resolvedPart, lambdasInOpt, rest]
      · cases dotted

end Draft

/-! ## The lambdas of a tree -/

namespace Node

/-- **The lambdas in a tree**, each before those inside it. -/
def lambdas (n : Node) : List Node := n.preorder.filter (·.kind = .lambda)

theorem lambdas_eq (n : Node) : n.lambdas = (if n.kind = .lambda then [n] else []) ++ n.children.flatMap lambdas := by
  have parts : (n.children.flatMap preorder).filter (·.kind = .lambda) = n.children.flatMap lambdas := filter_flatMap
  rw [lambdas, preorder_eq, filter_cons, parts]
  by_cases isLambda : n.kind = .lambda <;> simp [isLambda]

end Node

def lambdasOf (e : Option Expr) : List Node := e.toList.flatMap fun e => (Node.expr e).lambdas

/-- The lambdas in a statement that may be missing. -/
def lambdasOfStmt (s : Option Stmt) : List Node := s.toList.flatMap fun s => (Node.stmt s).lambdas

def lambdasOfArgs (args : List (Argument Expr)) : List Node := args.flatMap fun a => (Node.expr a.value).lambdas

@[simp] theorem lambdasOf_none : lambdasOf none = [] := rfl

@[simp] theorem lambdasOf_some (e : Expr) : lambdasOf (some e) = (Node.expr e).lambdas := flatMap_singleton ..

@[simp] theorem lambdasOfStmt_none : lambdasOfStmt none = [] := rfl

@[simp] theorem lambdasOfStmt_some (s : Stmt) : lambdasOfStmt (some s) = (Node.stmt s).lambdas := flatMap_singleton ..

theorem flatMap_ofExprs (es : List (Option Expr)) : (Node.ofExprs es).flatMap Node.lambdas = es.flatMap lambdasOf := by
  induction es with
  | nil => rfl
  | cons e es ih => cases e <;> simp_all [Node.ofExprs]

theorem flatMap_ofArgs (args : List (Argument Expr)) : (Node.ofArgs args).flatMap Node.lambdas = lambdasOfArgs args := by
  rw [Node.ofArgs, flatMap_map, lambdasOfArgs]

theorem flatMap_body (s : Option Stmt) : (s.toList.map Node.stmt).flatMap Node.lambdas = lambdasOfStmt s := by
  rw [flatMap_map, lambdasOfStmt]

variable (m : Mark) {form : ExprForm}

theorem lambdas_expr (other : form.kind ≠ .lambda) :
    (Node.expr (.node m form)).lambdas = (Node.exprChildren form).flatMap Node.lambdas := by
  rw [Node.lambdas_eq]
  exact congrArg (· ++ _) (if_neg other)

theorem lambdas_lambda (parameters : List LambdaParameter) (body : Option LambdaBody) :
    (Node.expr (.node m (.lambda parameters body))).lambdas =
      .expr (.node m (.lambda parameters body)) :: (Node.exprChildren (.lambda parameters body)).flatMap Node.lambdas :=
  Node.lambdas_eq _

theorem lambdas_call (target : Expr) (typeArgs : List Ty) (args : List (Argument Expr)) :
    (Node.expr (.node m (.call target typeArgs args))).lambdas = (Node.expr target).lambdas ++ lambdasOfArgs args := by
  rw [lambdas_expr m (by simp [ExprForm.kind]), Node.exprChildren, flatMap_cons, flatMap_ofArgs]

theorem lambdas_assign (left right : Option Expr) :
    (Node.expr (.node m (.assign left right))).lambdas = lambdasOf left ++ lambdasOf right := by
  rw [lambdas_expr m (by simp [ExprForm.kind]), Node.exprChildren, flatMap_ofExprs]
  simp

theorem lambdas_stmt (form : StmtForm) :
    (Node.stmt (.node m form)).lambdas = (Node.stmtChildren form).flatMap Node.lambdas := by
  rw [Node.lambdas_eq]
  refine congrArg (· ++ _) (if_neg ?_)
  cases form <;> nofun

/-! ## Lambdas in place -/

def Node.lambdaNames? : Node → Option (List String)
  | .expr (.node _ (.lambda parameters _)) => some (parameters.map (·.name))
  | _ => none

def Node.hasBody : Node → Bool
  | .expr (.node _ (.lambda _ body)) => body.isSome
  | _ => false

/-- **A node is the lambda of a draft**: it stands in the same place, it has the same parameters in order, and it has a body
exactly if the draft has one. -/
structure Represents (d : Draft) (n : Node) : Prop where
  line : n.mark.place.line = d.line
  column : n.mark.place.column = d.column
  parameters : n.lambdaNames?.map (·.map some) = some (d.parameters.map (Option.map (·.name)))
  body : n.hasBody = d.body.isSome

instance (d : Draft) (n : Node) : Decidable (Represents d n) :=
  decidable_of_iff (n.mark.place.line = d.line ∧ n.mark.place.column = d.column ∧
      n.lambdaNames?.map (·.map some) = some (d.parameters.map (Option.map (·.name))) ∧ n.hasBody = d.body.isSome)
    ⟨fun ⟨line, column, parameters, body⟩ => ⟨line, column, parameters, body⟩,
      fun ⟨line, column, parameters, body⟩ => ⟨line, column, parameters, body⟩⟩

/-- Every lambda of a list of drafts is there, in order, and there are no others. -/
abbrev Kept (ds : List Draft) (ns : List Node) : Prop := Forall₂ Represents ds ns

variable {ds : List Draft} {e : Option Expr}

/-- An expression around one that may be missing. -/
theorem kept_operand (kept : Kept ds (lambdasOf e)) (m : Mark) (other : form.kind ≠ .lambda)
    (part : Node.exprChildren form = Node.ofExprs [e]) : Kept ds (Node.expr (.node m form)).lambdas := by
  rw [lambdas_expr m other, part, flatMap_ofExprs, flatMap_singleton]
  exact kept

/-- A statement around an expression that may be missing. -/
theorem kept_value (kept : Kept ds (lambdasOf e)) (m : Mark) {form : StmtForm}
    (part : Node.stmtChildren form = Node.ofExprs [e]) : Kept ds (Node.stmt (.node m form)).lambdas := by
  rw [lambdas_stmt, part, flatMap_ofExprs, flatMap_singleton]
  exact kept

/-- A mark may change, as long as the place is the same. -/
theorem kept_mapMark {f : Mark → Mark} (place : ∀ m, (f m).place = m.place) (e : Expr)
    (kept : Kept ds (Node.expr e).lambdas) : Kept ds (Node.expr (e.mapMark f)).lambdas := by
  obtain ⟨m, form⟩ := e
  by_cases isLambda : form.kind = .lambda
  · cases form with
    | lambda parameters body =>
      rw [lambdas_lambda] at kept
      obtain ⟨d, ds, ⟨line, column, names, isPresent⟩, inside, rfl⟩ := forall₂_cons_right_iff.mp kept
      rw [Expr.mapMark, lambdas_lambda]
      refine .cons ⟨?_, ?_, names, isPresent⟩ inside
      · exact (congrArg Position.line (place m)).trans line
      · exact (congrArg Position.column (place m)).trans column
    | typed k => cases k <;> cases isLambda
    | _ => cases isLambda
  · rw [Expr.mapMark, lambdas_expr _ isLambda]
    rwa [lambdas_expr _ isLambda] at kept

theorem kept_withConverted {e : Expr} (kept : Kept ds (Node.expr e).lambdas) (t : Option Ty) :
    Kept ds (Node.expr (e.withConverted t)).lambdas :=
  kept_mapMark (f := ({ · with converted := t })) (fun _ => rfl) e kept

/-- An expression that may be missing may be converted where a condition says so. -/
theorem kept_convert (kept : Kept ds (lambdasOf e)) (c : Expr → Bool) (t : Option Ty) :
    Kept ds (lambdasOf (e.map fun e => if c e then e.withConverted t else e)) := by
  cases e with
  | none => exact kept
  | some e =>
    rw [lambdasOf_some] at kept
    rw [Option.map_some, lambdasOf_some]
    split
    · exact kept_withConverted kept t
    · exact kept

theorem kept_modify {f : Option Expr → Option Expr} (same : ∀ ds e, Kept ds (lambdasOf e) → Kept ds (lambdasOf (f e)))
    {values : List (Option Expr)} (kept : Kept ds (values.flatMap lambdasOf)) (i : Nat) :
    Kept ds ((values.modify i f).flatMap lambdasOf) := by
  induction values generalizing ds i with
  | nil => simpa using kept
  | cons e values ih =>
    have first := forall₂_take_append ds _ _ kept
    have rest := forall₂_drop_append ds _ _ kept
    rw [← take_append_drop (lambdasOf e).length ds]
    cases i with
    | zero => exact rel_append (same _ e first) rest
    | succ i => exact rel_append first (ih rest i)

theorem kept_withSymbol {e : Expr} (kept : Kept ds (Node.expr e).lambdas) (s : Symbol) :
    Kept ds (Node.expr (e.withSymbol s)).lambdas :=
  kept_mapMark (f := ({ · with symbol := some s })) (fun _ => rfl) e kept

theorem Mark.place_typed (static expected : Option Ty) : (m.typed static expected).place = m.place := by
  unfold typed
  split <;> rfl

end Polyglot
