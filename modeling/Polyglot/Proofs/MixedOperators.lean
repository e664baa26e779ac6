import Polyglot.Proofs.Operators.Faithful
import Polyglot.Proofs.Writing.Basic

/-!
# Operators that do not mix

TypeScript has no expression in which `??` stands next to `||` or `&&` without parentheses. Parentheses are written by
levels alone, and `??` is the loosest of the three: inside the other two it is always put in parentheses, and they are
never put in parentheses inside it.
-/

namespace Polyglot

open List Emit Operators

/-- The binary operator of an expression, where it is none that the program defines. -/
def Expr.joiner? : Expr → Option String
  | .node m (.binary left right) => if (Expr.node m (.binary left right)).userOperator? = none then some m.op else none
  | _ => none

/-- The operators of two nodes, one an operand of the other, that have to be kept apart by parentheses. -/
def Mixed (op inner : String) : Prop :=
  op = "??" ∧ inner ∈ ["||", "&&"] ∨ inner = "??" ∧ op ∈ ["||", "&&"]

theorem Expr.eq_of_joiner? {e : Expr} {op : String} (joined : e.joiner? = some op) :
    ∃ m left right, e = .node m (.binary left right) ∧ e.userOperator? = none ∧ m.op = op := by
  unfold Expr.joiner? at joined
  split at joined
  · next m left right =>
    obtain ⟨user, same⟩ := Option.ite_none_right_eq_some.mp joined
    exact ⟨m, left, right, rfl, user, Option.some.inj same⟩
  · cases joined

theorem Mixed.ne_slash {op inner : String} (mixed : Mixed op inner) : inner ≠ "/" := by
  rintro rfl
  simp [Mixed] at mixed

namespace Emit

variable {scene : Scene} {sheet sheet' : Sheet} {levels : Nat} {x : Rendered} {r : Emitter} {e : Expr} {op : String}

theorem plainBinary_eq_ok {left right : Option Expr} (user : e.userOperator? = none)
    (run : plainBinary r e left right scene sheet = (.ok x, sheet')) :
    ∃ l rt middle, r.value left scene sheet = (.ok l, middle) ∧ r.value right scene middle = (.ok rt, sheet') ∧
      x = .binary scene.target e.mark.op l rt := by
  obtain ⟨l, middle, first, run⟩ := bind_eq_ok run
  obtain ⟨rt, last, second, run⟩ := bind_eq_ok run
  rw [user] at run
  obtain ⟨dialect, _, read, run⟩ := bind_eq_ok run
  cases read
  split at run
  · cases run
  · obtain ⟨target, _, read, run⟩ := bind_eq_ok run
    cases read
    cases run
    exact ⟨l, rt, middle, first, second, rfl⟩

/-- One of the operators in TypeScript: its operands are emitted, and stand to both sides of it. -/
theorem joined_eq_ok (typescript : scene.target = .typescript) {left right : Option Expr}
    (form : e.form = .binary left right) (user : e.userOperator? = none) (whole : e.mark.op ≠ "/")
    (run : (Emitter.within (levels + 1)).bare e scene sheet = (.ok x, sheet')) :
    ∃ l rt middle, (Emitter.within levels).value left scene sheet = (.ok l, middle) ∧
      (Emitter.within levels).value right scene middle = (.ok rt, sheet') ∧
      x = .binary .typescript e.mark.op l rt := by
  obtain ⟨m, f⟩ := e
  cases form
  obtain ⟨target, _, read, run⟩ := bind_eq_ok (show binary _ _ left right scene sheet = _ from run)
  cases read
  rw [typescript] at run
  obtain ⟨y, _, first, run⟩ := bind_eq_ok run
  rw [if_neg (by simp [whole])] at run
  cases run
  exact typescript ▸ plainBinary_eq_ok user first

/-- Nothing is converted in TypeScript. -/
theorem bare_of_value (typescript : scene.target = .typescript)
    (run : r.value (some e) scene sheet = (.ok x, sheet')) : r.bare e scene sheet = (.ok x, sheet') := by
  obtain ⟨y, _, first, run⟩ := bind_eq_ok run
  obtain ⟨target, _, read, run⟩ := bind_eq_ok run
  cases read
  have allowed : scene.target.refusedCast? y.mode e.static e.converted = none := by rw [typescript]; rfl
  have kept : scene.target.convert scene.world.index e.static e.converted y = y := by
    rw [typescript]
    exact ite_self y
  simp only [allowed] at run
  obtain ⟨index, _, read, run⟩ := bind_eq_ok run
  cases read
  rw [kept] at run
  cases run
  exact first

/-- An operand has the level of its operator. -/
theorem prec_of_joiner? (typescript : scene.target = .typescript) {e : Option Expr}
    (joined : e.bind Expr.joiner? = some op) (whole : op ≠ "/")
    (run : (Emitter.within levels).value e scene sheet = (.ok x, sheet')) :
    x.prec = Target.typescript.precedence op := by
  obtain ⟨e, rfl, joined⟩ := Option.bind_eq_some_iff.mp joined
  obtain ⟨m, left, right, rfl, user, rfl⟩ := Expr.eq_of_joiner? joined
  cases levels with
  | zero => cases bare_of_value typescript run
  | succ levels =>
    obtain ⟨l, rt, middle, -, -, rfl⟩ := joined_eq_ok typescript rfl user whole (bare_of_value typescript run)
    rfl

theorem operand_of_mixed {inner : String} (mixed : Mixed op inner) {least : Prec}
    (place : least ∈ [Target.typescript.precedence op, Target.typescript.precedence op + 1])
    (level : x.prec = Target.typescript.precedence inner) :
    x.operand least = if inner = "??" then "(" ++ x.text ++ ")" else x.text := by
  have inCoalesce : ∀ inner ∈ ["||", "&&"], ∀ least ∈ [Target.typescript.precedence "??",
      Target.typescript.precedence "??" + 1], Target.typescript.precedence inner < least ↔ inner = "??" := by decide
  have inLogical : ∀ op ∈ ["||", "&&"], ∀ least ∈ [Target.typescript.precedence op, Target.typescript.precedence op + 1],
      Target.typescript.precedence "??" < least := by decide
  have loose : x.prec < least ↔ inner = "??" := by
    rw [level]
    rcases mixed with ⟨rfl, mem⟩ | ⟨rfl, mem⟩
    · exact inCoalesce inner mem least place
    · exact iff_of_true (inLogical op mem least place) rfl
  rw [Rendered.operand, if_congr loose rfl rfl]

/-- **Only `??` is put in parentheses where operators mix**: an operand with one of the other two inside `??` is written as
it is, and `??` inside one of the other two is in parentheses, on both sides and at every depth. -/
theorem mixed_parenthesized_iff (typescript : scene.target = .typescript) {m : Mark} {left right : Option Expr}
    (user : (Expr.node m (.binary left right)).userOperator? = none) (mixes : m.op ∈ ["??", "||", "&&"])
    (run : (Emitter.within (levels + 1)).bare (.node m (.binary left right)) scene sheet = (.ok x, sheet')) :
    ∃ l rt middle a b, (Emitter.within levels).value left scene sheet = (.ok l, middle) ∧
      (Emitter.within levels).value right scene middle = (.ok rt, sheet') ∧
      x.text = a ++ " " ++ m.op ++ " " ++ b ∧
      ∀ inner, Mixed m.op inner →
        (left.bind Expr.joiner? = some inner → a = if inner = "??" then "(" ++ l.text ++ ")" else l.text) ∧
        (right.bind Expr.joiner? = some inner → b = if inner = "??" then "(" ++ rt.text ++ ")" else rt.text) := by
  have written : ∀ op ∈ ["??", "||", "&&"], op ≠ "/" ∧ isComparison op = false ∧ Target.typescript.operator op = op := by
    decide
  obtain ⟨whole, once, same⟩ := written m.op mixes
  obtain ⟨l, rt, middle, first, second, rfl⟩ := joined_eq_ok typescript rfl user whole run
  have text : (Rendered.binary .typescript m.op l rt).text = l.operand (Target.typescript.precedence m.op) ++ " " ++ m.op ++
      " " ++ rt.operand (Target.typescript.precedence m.op + 1) := by
    simp [Rendered.binary, Rendered.compound, once, same]
  refine ⟨l, rt, middle, _, _, first, second, text, fun inner mixed => ⟨fun joined => ?_, fun joined => ?_⟩⟩
  · exact operand_of_mixed mixed mem_cons_self (prec_of_joiner? typescript joined (mixed.ne_slash) first)
  · exact operand_of_mixed mixed (mem_cons_of_mem _ mem_cons_self) (prec_of_joiner? typescript joined mixed.ne_slash second)

end Emit

/-! ## Operators on three numbers -/

namespace Mixed

def number (text : String) : Option Expr := some (.node (integerMark "" false none) (.literal ⟨.int, text⟩))

def pair (op : String) (left right : Option Expr) : Expr := .node (integerMark op false none) (.binary left right)

theorem mixed_parenthesized_either :
    let both := pair "||" (number "1") (some (pair "??" (number "2") (number "3")))
    ∃ x sheet' rt a, (Emitter.within 3).bare both (.bare .typescript) (Scene.bare .typescript).blank = (.ok x, sheet') ∧
      x.text = a ++ " " ++ "||" ++ " " ++ ("(" ++ rt ++ ")") := by
  intro both
  obtain ⟨x, sheet', run⟩ : ∃ x sheet', (Emitter.within 3).bare both (.bare .typescript) (Scene.bare .typescript).blank =
    (.ok x, sheet') := ⟨_, _, rfl⟩
  obtain ⟨l, rt, middle, a, b, -, -, text, inner⟩ := mixed_parenthesized_iff rfl rfl (by decide) run
  have right : b = "(" ++ rt.text ++ ")" := (inner "??" (.inr ⟨rfl, by decide⟩)).2 rfl
  exact ⟨x, sheet', rt.text, a, run, right ▸ text⟩

/-- Inside `??` there are no parentheses. -/
theorem coalesce_mixed_bare :
    let both := pair "??" (number "1") (some (pair "||" (number "2") (number "3")))
    ∃ x sheet', (Emitter.within 3).bare both (.bare .typescript) (Scene.bare .typescript).blank = (.ok x, sheet') ∧
      Mixed "??" "||" ∧ x.text = "1 ?? 2 || 3" := by
  refine ⟨_, _, rfl, .inl ⟨rfl, by decide⟩, ?_⟩
  decide +kernel

end Mixed

end Polyglot
