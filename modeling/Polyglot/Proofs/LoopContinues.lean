import Polyglot.Emit.Knot
import Polyglot.Proofs.Effects
import Polyglot.Proofs.Writing.Basic

/-!
# Whose loop a `continue` continues

A `continue` belongs to the innermost loop around it, and a lambda is a body of its own. Where a counting loop is written as
a `while` loop, its own `continue` would jump over the steps behind the body, so such a loop is refused. The search
(`Node.continues`) goes down to the next loops and lambdas, but enters a body that is a loop itself.
-/

namespace Polyglot

namespace Node

variable {n child last : Node} {around : List Node} {levels : Nat}

/-- Loops and lambdas: no `continue` inside them continues a loop around them. -/
def IsScope (n : Node) : Prop := n.kind ∈ [NodeKind.whileLoop, .forLoop, .foreach, .lambda]

instance : DecidablePred IsScope := fun n => inferInstanceAs (Decidable (n.kind ∈ _))

/-- A way down from a node to one in it, with the nodes around that. -/
inductive Way : Node → List Node → Node → Prop where
  | here {n : Node} : Way n [] n
  | into {n child last : Node} {around : List Node} (part : child ∈ n.children) (way : Way child around last) :
      Way n (n :: around) last

/-- **A node continues the loop around it**: there is a `continue` in the node that has neither a loop nor a lambda of the
node around it. -/
def ContinuesAround (n : Node) : Prop :=
  ∃ around last, Way n around last ∧ last.kind = .continueLoop ∧ ∀ m ∈ around, ¬ m.IsScope

/-- **A node continues itself**: it is a loop, or a lambda, and has a `continue` of its own. -/
def ContinuesItself (n : Node) : Prop := n.IsScope ∧ ∃ child ∈ n.children, child.ContinuesAround

theorem continuesAround_iff :
    n.ContinuesAround ↔ n.kind = .continueLoop ∨ ¬ n.IsScope ∧ ∃ child ∈ n.children, child.ContinuesAround := by
  constructor
  · rintro ⟨around, last, way, isContinue, free⟩
    cases way with
    | here => exact .inl isContinue
    | into part way =>
      obtain ⟨here, free⟩ := List.forall_mem_cons.mp free
      exact .inr ⟨here, _, part, _, last, way, isContinue, free⟩
  · rintro (isContinue | ⟨here, child, part, around, last, way, isContinue, free⟩)
    · exact ⟨[], n, .here, isContinue, by simp⟩
    · exact ⟨n :: around, last, .into part way, isContinue, List.forall_mem_cons.mpr ⟨here, free⟩⟩

theorem ContinuesItself.not_around (itself : n.ContinuesItself) : ¬ n.ContinuesAround := by
  rw [continuesAround_iff]
  rintro (isContinue | ⟨plain, -⟩)
  · simpa [IsScope, isContinue] using itself.1
  · exact plain itself.1

theorem continuesWithin_iff (deep : n.depth ≤ levels) : continuesWithin levels n = true ↔ n.ContinuesAround := by
  have one := n.depth_pos
  induction levels generalizing n with
  | zero => omega
  | succ levels ih =>
    have parts : n.children.any (continuesWithin levels) = true ↔ ∃ child ∈ n.children, child.ContinuesAround := by
      rw [List.any_eq_true]
      refine exists_congr fun child => and_congr_right fun part => ih ?_ child.depth_pos
      have less := depth_lt_of_mem_children part
      omega
    rw [continuesAround_iff, continuesWithin]
    split <;> simp_all [IsScope]

theorem continues_iff : n.continues = true ↔ n.kind = .continueLoop ∨ ∃ child ∈ n.children, child.ContinuesAround := by
  rw [continues, Bool.or_eq_true, decide_eq_true_iff, List.any_eq_true]
  refine or_congr_right (exists_congr fun child => and_congr_right fun part => continuesWithin_iff ?_)
  exact Nat.le_of_lt (depth_lt_of_mem_children part)

/-- **The search is right but for loops**: it finds what continues the loop around a node, and what continues the node. -/
theorem continues_iff_around_or_itself : n.continues = true ↔ n.ContinuesAround ∨ n.ContinuesItself := by
  rw [continues_iff, continuesAround_iff, ContinuesItself]
  by_cases scope : n.IsScope
  all_goals simp [scope]

end Node

namespace Emit

/-- A counting loop as a `while` loop in a block of its own, with the steps behind the body. -/
def whileFor (r : Emitter) (init : List Stmt) (cond : Option Expr) (post : List (Option Expr)) (body : Option Stmt) :
    Emit Unit := do
  openBlock ""
  r.stmts init
  let test ← if cond.isNone then pure "true" else condition r cond
  openBlock ("while " ++ test)
  r.body body
  post.forM (stepStatement r)
  closeBlock
  endLine
  closeBlock

section

variable (r : Emitter) (s : Stmt) (init : List Stmt) (cond : Option Expr) (post : List (Option Expr)) (body : Stmt)

theorem rustFor_eq : rustFor r s init cond post (some body) =
    if (Node.stmt body).continues then unsupported s.place "continue inside a for loop"
    else whileFor r init cond post (some body) := by
  cases cond <;> rfl

/-- **Which counting loops are refused.** A body is taken to continue its loop exactly when it does or is a loop that
continues itself; so the answer is wrong for the latter only. In Rust such a loop is refused, with nothing written, and
every other loop is written as a `while` loop. -/
theorem for_refused_iff {scene : Scene} (rust : scene.target = .rust) (sheet : Sheet) :
    ((Node.stmt body).continues = true ↔ (Node.stmt body).ContinuesAround ∨ (Node.stmt body).ContinuesItself) ∧
    (((Node.stmt body).continues = true ↔ (Node.stmt body).ContinuesAround) ↔ ¬ (Node.stmt body).ContinuesItself) ∧
    ((Node.stmt body).ContinuesAround ∨ (Node.stmt body).ContinuesItself →
      forLoop r s init cond post (some body) scene sheet =
        (.error (.unsupported "rust" s.place "continue inside a for loop"), sheet)) ∧
    (¬ ((Node.stmt body).ContinuesAround ∨ (Node.stmt body).ContinuesItself) →
      forLoop r s init cond post (some body) scene sheet = whileFor r init cond post (some body) scene sheet) := by
  have found := @Node.continues_iff_around_or_itself (.stmt body)
  have lowered : forLoop r s init cond post (some body) scene sheet =
      (if scene.target = .rust then rustFor r s init cond post (some body)
        else plainFor r init cond post (some body)) scene sheet := rfl
  rw [lowered, if_pos rust, rustFor_eq]
  refine ⟨found, ?_, fun continues => ?_, fun none => ?_⟩
  · rw [found]
    exact ⟨fun same itself => itself.not_around (same.mp (.inr itself)), fun other => or_iff_left other⟩
  · rw [if_pos (found.mpr continues)]
    obtain ⟨t, _, _, _, _⟩ := scene
    cases rust
    rfl
  · rw [if_neg (mt found.mp none)]

end

namespace Nested

def next : Stmt := .node default .continueLoop

/-- A loop that continues itself. -/
def spin : Stmt := .node default (.whileLoop none (some next))

/-- A body that continues the loop around it, behind one that continues itself. -/
def skip : Stmt := .node default (.block [spin, next])

theorem spin_continuesItself : (Node.stmt spin).ContinuesItself :=
  ⟨by decide, .stmt next, .head _, [], .stmt next, .here, rfl, by simp⟩

theorem for_refused_skip : ∃ scene : Scene, scene.target = .rust ∧ (Node.stmt skip).ContinuesAround ∧
    forLoop (Emitter.within 3) spin [] none [] (some skip) scene scene.blank =
      (.error (.unsupported "rust" spin.place "continue inside a for loop"), scene.blank) := by
  have around : (Node.stmt skip).ContinuesAround :=
    ⟨[.stmt skip], .stmt next, .into (.tail _ (.head _)) .here, rfl, by decide⟩
  exact ⟨.bare .rust, rfl, around, (for_refused_iff _ spin [] none [] skip rfl _).2.2.1 (.inl around)⟩

/-- A loop that is the whole body is refused for a `continue` of its own. -/
theorem for_refused_spin : (Node.stmt spin).continues = true ∧ ¬ (Node.stmt spin).ContinuesAround ∧
    ∃ scene : Scene, scene.target = .rust ∧ forLoop (Emitter.within 3) spin [] none [] (some spin) scene scene.blank =
      (.error (.unsupported "rust" spin.place "continue inside a for loop"), scene.blank) :=
  ⟨by decide, spin_continuesItself.not_around, .bare .rust, rfl, rfl⟩

end Nested

end Emit

end Polyglot
