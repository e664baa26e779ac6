import Mathlib.Algebra.GroupWithZero.Nat
import Mathlib.Data.List.Basic
import Polyglot.Emit.Conversion

/-!
# Effects of a tree

The nodes of a tree that do something when they are evaluated: calls, creations of objects, assignments, increments and
decrements. To follow them into the emitted text, the effects are given marks, as many as a weight says, and the marks of a tree
are counted.
-/

namespace Polyglot

open List

namespace Node

variable {n child : Node}

/-! ## Levels -/

/-- The most levels of the elements of a list are no fewer than those of one of them. -/
theorem le_of_mem_of_max {α : Type} {f : α → Nat} {g : List α → Nat} (cons : ∀ a l, g (a :: l) = max (f a) (g l))
    {a : α} {l : List α} (h : a ∈ l) : f a ≤ g l := by
  induction l with
  | nil => cases h
  | cons b l ih =>
    rw [cons]
    cases h with
    | head => exact Nat.le_max_left _ _
    | tail _ h => exact Nat.le_trans (ih h) (Nat.le_max_right _ _)

theorem depth_le_of_mem_ofExprs {es : List (Option Expr)} (h : child ∈ ofExprs es) : child.depth ≤ optsDepth es := by
  obtain ⟨part, mem, same⟩ := mem_filterMap.mp h
  obtain ⟨e, rfl, rfl⟩ := Option.map_eq_some_iff.mp same
  exact le_of_mem_of_max (f := optDepth) (fun _ _ => by rw [optsDepth]) mem

theorem depth_le_of_mem_ofArgs {args : List (Argument Expr)} (h : child ∈ ofArgs args) : child.depth ≤ argsDepth args := by
  obtain ⟨a, mem, rfl⟩ := mem_map.mp h
  exact le_of_mem_of_max (f := fun a : Argument Expr => a.value.depth) (fun _ _ => by rw [argsDepth]) mem

theorem depth_le_of_mem_exprs {es : List Expr} (h : child ∈ es.map expr) : child.depth ≤ exprsDepth es := by
  obtain ⟨e, mem, rfl⟩ := mem_map.mp h
  exact le_of_mem_of_max (f := Expr.depth) (fun _ _ => by rw [exprsDepth]) mem

theorem depth_le_of_mem_stmts {ss : List Stmt} (h : child ∈ ss.map stmt) : child.depth ≤ stmtsDepth ss := by
  obtain ⟨s, mem, rfl⟩ := mem_map.mp h
  exact le_of_mem_of_max (f := Stmt.depth) (fun _ _ => by rw [stmtsDepth]) mem

theorem depth_le_of_mem_body {body : Option Stmt} (h : child ∈ body.toList.map stmt) : child.depth ≤ optStmtDepth body := by
  obtain ⟨s, mem, rfl⟩ := mem_map.mp h
  exact Nat.le_of_eq (by rw [Option.mem_toList.mp mem, optStmtDepth, depth])

theorem depth_le_of_mem_handlers {hs : List (Handler Stmt)} (h : child ∈ hs.flatMap (fun h => h.body.toList.map stmt)) :
    child.depth ≤ handlersDepth hs := by
  obtain ⟨handler, mem, inside⟩ := mem_flatMap.mp h
  have most := le_of_mem_of_max (f := fun h : Handler Stmt => optStmtDepth h.body) (g := handlersDepth)
    (fun _ _ => by rw [handlersDepth]) mem
  exact Nat.le_trans (depth_le_of_mem_body inside) most

theorem depth_le_of_mem_exprChildren {form : ExprForm} (h : child ∈ exprChildren form) : child.depth ≤ form.depth := by
  have present {e : Option Expr} (h : child ∈ ofExprs [e]) : child.depth ≤ optDepth e := by
    simpa [optsDepth] using depth_le_of_mem_ofExprs h
  cases form with
  | literal _ | identifier | this | base => cases h
  | member e | unary e | paren e | typed _ _ e => exact present h
  | call target _ args =>
    rcases mem_cons.mp h with rfl | h
    · exact Nat.le_max_left _ _
    · exact Nat.le_trans (depth_le_of_mem_ofArgs h) (Nat.le_max_right _ _)
  | creation _ args elements =>
    rcases mem_append.mp h with h | h
    · exact Nat.le_trans (depth_le_of_mem_ofArgs h) (Nat.le_max_left _ _)
    · exact Nat.le_trans (depth_le_of_mem_exprs h) (Nat.le_max_right _ _)
  | arrayCreation _ sizes elements =>
    rcases mem_append.mp h with h | h
    · exact Nat.le_trans (depth_le_of_mem_ofExprs h) (Nat.le_max_left _ _)
    · exact Nat.le_trans (depth_le_of_mem_ofExprs h) (Nat.le_max_right _ _)
  | binary l r | assign l r | conditional c a b =>
    simpa [optsDepth, ExprForm.depth] using depth_le_of_mem_ofExprs h
  | index target args =>
    rcases mem_append.mp h with h | h
    · exact Nat.le_trans (present h) (Nat.le_max_left _ _)
    · exact Nat.le_trans (depth_le_of_mem_ofArgs h) (Nat.le_max_right _ _)
  | lambda _ body =>
    rcases body with _ | e | s
    · cases h
    all_goals
      rw [mem_singleton.mp h]
      exact Nat.le_refl _
  | anonymous elements => exact depth_le_of_mem_exprs h
  | element values => exact depth_le_of_mem_ofExprs h

theorem depth_le_of_mem_stmtChildren {form : StmtForm} (h : child ∈ stmtChildren form) : child.depth ≤ form.depth := by
  have present {e : Option Expr} (h : child ∈ ofExprs [e]) : child.depth ≤ optDepth e := by
    simpa [optsDepth] using depth_le_of_mem_ofExprs h
  cases form with
  | breakLoop | continueLoop => cases h
  | block ss => exact depth_le_of_mem_stmts h
  | expr e | declaration _ e | returns e | throws e | yields e => exact present h
  | ifElse c a b =>
    simp only [stmtChildren, mem_append] at h
    rw [StmtForm.depth]
    rcases h with (h | h) | h
    · have := present h
      omega
    all_goals
      have := depth_le_of_mem_body h
      omega
  | whileLoop c b | foreach _ c b =>
    simp only [stmtChildren, mem_append] at h
    rw [StmtForm.depth]
    rcases h with h | h
    · have := present h
      omega
    · have := depth_le_of_mem_body h
      omega
  | forLoop init c post b =>
    simp only [stmtChildren, mem_append] at h
    rw [StmtForm.depth]
    rcases h with ((h | h) | h) | h
    · have := depth_le_of_mem_stmts h
      omega
    · have := present h
      omega
    · have := depth_le_of_mem_ofExprs h
      omega
    · have := depth_le_of_mem_body h
      omega
  | tryCatch b handlers f =>
    simp only [stmtChildren, mem_append] at h
    rw [StmtForm.depth]
    rcases h with (h | h) | h
    · have := depth_le_of_mem_body h
      omega
    · have := depth_le_of_mem_handlers h
      omega
    · have := depth_le_of_mem_body h
      omega

/-- **A part has fewer levels than the whole.** -/
theorem depth_lt_of_mem_children (h : child ∈ n.children) : child.depth < n.depth := by
  cases n with
  | expr e =>
    cases e with
    | node m form =>
      exact Nat.lt_succ_of_le (depth_le_of_mem_exprChildren h)
  | stmt s =>
    cases s with
    | node m form =>
      exact Nat.lt_succ_of_le (depth_le_of_mem_stmtChildren h)

theorem depth_pos (n : Node) : 0 < n.depth := by
  rcases n with ⟨m, form⟩ | ⟨m, form⟩ <;> exact Nat.succ_pos _

/-- Levels that a node does not have add nothing. -/
theorem preorderWithin_congr {a b : Nat} (deep : n.depth ≤ a) (deep' : n.depth ≤ b) :
    preorderWithin a n = preorderWithin b n := by
  have one := n.depth_pos
  induction a generalizing b n with
  | zero => omega
  | succ a ih =>
    obtain ⟨b, rfl⟩ : ∃ rest, b = rest + 1 := ⟨b - 1, by omega⟩
    rw [preorderWithin]
    congr 1
    refine flatMap_congr fun child mem => ?_
    have less := depth_lt_of_mem_children mem
    exact ih (by omega) (by omega) child.depth_pos

/-- **A node stands before its parts.** -/
theorem preorder_eq (n : Node) : n.preorder = n :: n.children.flatMap preorder := by
  have more : n.preorder = preorderWithin (n.depth + 1) n := preorderWithin_congr (Nat.le_refl _) (Nat.le_succ _)
  rw [more, preorderWithin]
  congr 1
  refine flatMap_congr fun child mem => preorderWithin_congr ?_ (Nat.le_refl _)
  exact Nat.le_of_lt (depth_lt_of_mem_children mem)

/-! ## Marks -/

/-- Does the node do something when it is evaluated? It is a call, the creation of an object, an assignment, an increment
or a decrement. -/
def isEffect (n : Node) : Bool :=
  n.kind ∈ [.invocation, .creation, .assign] || (n.kind = .unary && n.mark.op ∈ ["++", "--"])

variable (w : Node → Nat)

/-- **The marks of the effects in a tree**, when an effect has as many of its own as a weight says. -/
def marks (n : Node) : Nat := ((n.preorder.filter isEffect).map w).sum

theorem marks_eq (n : Node) : n.marks w = (if n.isEffect then w n else 0) + (n.children.map (marks w)).sum := by
  have parts : (((n.children.flatMap preorder).filter isEffect).map w).sum = (n.children.map (marks w)).sum := by
    induction n.children with
    | nil => rfl
    | cons child rest ih => simp [marks, ih]
  rw [marks, preorder_eq, filter_cons]
  split
  · rw [map_cons, sum_cons, parts]
  · rw [parts, Nat.zero_add]

end Node

variable (w : Node → Nat)

/-- The marks of a part; none if it is missing. -/
def marksOf (e : Option Expr) : Nat := (e.map fun e => (Node.expr e).marks w).getD 0

def marksOfAll (es : List (Option Expr)) : Nat := (es.map (marksOf w)).sum

theorem marks_ofExprs (e : Option Expr) : ((Node.ofExprs [e]).map (Node.marks w)).sum = marksOf w e := by
  cases e <;> rfl

theorem marks_ofArgs (args : List (Argument Expr)) :
    ((Node.ofArgs args).map (Node.marks w)).sum = marksOfAll w (args.map fun a => some a.value) := by
  rw [marksOfAll, Node.ofArgs, map_map, map_map]
  rfl

/-- The effects of a node that is none itself are those of its parts. -/
theorem marks_of_not_isEffect {n : Node} (none : n.isEffect = false) : n.marks w = (n.children.map (Node.marks w)).sum := by
  rw [Node.marks_eq, none, if_neg Bool.false_ne_true, Nat.zero_add]

theorem marksOf_leaf (m : Mark) (form : ExprForm) (none : (Node.expr (.node m form)).isEffect = false)
    (leaf : Node.exprChildren form = []) : marksOf w (some (.node m form)) = 0 := by
  have parts : marksOf w (some (.node m form)) = ((Node.exprChildren form).map (Node.marks w)).sum :=
    marks_of_not_isEffect w none
  rw [parts, leaf]
  rfl

/-- A member has the effects of what it belongs to. -/
theorem marksOf_member (m : Mark) (target : Option Expr) : marksOf w (some (.node m (.member target))) = marksOf w target :=
  (marks_of_not_isEffect w rfl).trans (marks_ofExprs w target)

/-- An index has the effects of what it belongs to and those of its arguments. -/
theorem marksOf_index (m : Mark) (target : Option Expr) (args : List (Argument Expr)) :
    marksOf w (some (.node m (.index target args))) = marksOf w target + marksOfAll w (args.map fun a => some a.value) := by
  have parts : marksOf w (some (.node m (.index target args))) =
      ((Node.ofExprs [target] ++ Node.ofArgs args).map (Node.marks w)).sum := marks_of_not_isEffect w rfl
  rw [parts, map_append, sum_append, marks_ofExprs, marks_ofArgs]

/-! ## Operands that may be evaluated twice -/

mutual

theorem marks_of_isSimple : (e : Expr) → e.isSimple = .ok true → (Node.expr e).marks w = 0
  | .node m (.literal c), _ => marksOf_leaf w m (.literal c) rfl rfl
  | .node m .identifier, _ => marksOf_leaf w m .identifier rfl rfl
  | .node m .this, _ => marksOf_leaf w m .this rfl rfl
  | .node m (.member target), simple => (marksOf_member w m target).trans (marksOf_of_isSimpleOr target _ simple)
  | .node m (.paren inner), simple => by
    rw [marks_of_not_isEffect w rfl]
    exact (marks_ofExprs w inner).trans (marksOf_of_isSimpleOr inner _ simple)

theorem marksOf_of_isSimpleOr : (e : Option Expr) → (missing : Except Fault Bool) → isSimpleOr e missing = .ok true →
    marksOf w e = 0
  | none, _, _ => rfl
  | some e, _, simple => marks_of_isSimple e simple

end

/-- **An operand that may be evaluated twice has no effects.** -/
theorem marksOf_of_simpleOperand {e : Option Expr} (simple : simpleOperand e = .ok true) : marksOf w e = 0 :=
  marksOf_of_isSimpleOr w e _ simple

end Polyglot
