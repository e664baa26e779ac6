import Polyglot.Proofs.Basic
import Polyglot.Proofs.Operators.Scan

/-!
# Reading operator text

The grammar of operator expressions in a target, with the levels of its table of operators. Operators between two operands
are left-associative, assignments and choices are right-associative, and in a target that compares once a comparison is no
operand of a comparison. `Math.trunc` of something is a call.

`expression` climbs the levels: it reads an operand and goes on while an operator follows that binds tightly enough.
-/

namespace Polyglot.Operators

open List

/-- An operator expression without parentheses. -/
inductive Reading where
  | name (text : String)
  | number (text : String)
  | prefixed (op : String) (operand : Reading)
  | postfixed (op : String) (operand : Reading)
  /-- A binary operator or an assignment. -/
  | infixed (op : String) (left right : Reading)
  | choice (cond yes no : Reading)
  | call (callee : String) (argument : Reading)
deriving Repr, DecidableEq

/-! ## Marks -/

def assignments : List String :=
  ["=", "+=", "-=", "*=", "/=", "%=", "&=", "|=", "^=", "<<=", ">>=", ">>>=", "&&=", "||=", "??="]

/-- The operators that count up and down; Rust has none. -/
def counters (t : Target) : List String := if t = .rust then [] else ["++", "--"]

/-- The operators before an operand. -/
def prefixes (t : Target) : List String := ["-", "!"] ++ counters t

/-- **The marks of a target**: its binary operators, and what is the same in all targets. Assignments and
choices are no operator expressions in Rust. -/
def marks (t : Target) : List String :=
  t.levels.map (·.1) ++ prefixes t ++ ["(", ")", "."] ++
    (if t = .rust then [] else "?" :: ":" :: assignments)

/-- How an operator binds: its level, and the least levels of its operands. -/
structure Fixity where
  level : Prec
  left : Prec
  right : Prec
deriving Repr, DecidableEq

/-- How the operators between two operands bind. -/
def fixity? (t : Target) (op : String) : Option Fixity :=
  if op ∈ assignments then some ⟨Prec.assignment, Prec.unary, Prec.assignment⟩
  else
    (t.levels.lookup op).map fun p =>
      ⟨p, if t.dialect.comparesOnce && isComparison op then p + 1 else p, p + 1⟩

/-! ## The parser -/

/-- A word by itself. -/
def atom (w : String) : Reading := if w.toList.head?.any Char.isDigit then .number w else .name w

/-- The operators behind an operand, which may be several. -/
def suffixes (t : Target) : Reading → Prec → List Token → Reading × Prec × List Token
  | e, level, .mark m :: rest =>
    if m ∈ counters t then suffixes t (.postfixed m e) Prec.postfixed rest else (e, level, .mark m :: rest)
  | e, level, tokens => (e, level, tokens)

/-- The argument list of `Math.trunc` behind its first word. -/
def truncates? (t : Target) (w : String) : List Token → Option (List Token)
  | .mark "." :: .word "trunc" :: .mark "(" :: rest =>
    if t = .typescript && w = "Math" then some rest else none
  | _ => none

variable {e : Reading} {level : Prec} {rest : List Token}

theorem length_lt_of_truncates? {t : Target} {w : String} {tokens : List Token} (h : truncates? t w tokens = some rest) :
    rest.length < tokens.length := by
  unfold truncates? at h
  split at h
  · split at h
    · cases h
      simp only [length_cons]
      omega
    · cases h
  · cases h

mutual

/-- **An expression** that binds at least as tightly as `least`, and what follows it. -/
def expression (t : Target) (least : Prec) (tokens : List Token) : Option (Reading × List Token) :=
  match operand t tokens with
  | none => none
  | some (e, level, rest) => if rest.length < tokens.length then climb t least e level rest else none
termination_by (tokens.length, 1)

/-- An operand with the operators before and behind it, its level, and what follows it. -/
def operand (t : Target) (tokens : List Token) : Option (Reading × Prec × List Token) :=
  match tokens with
  | [] => none
  | .word w :: rest =>
    match h : truncates? t w rest with
    | some inner =>
      have := length_lt_of_truncates? h
      match expression t Prec.lowest inner with
      | some (e, .mark ")" :: rest) => some (suffixes t (.call "Math.trunc" e) Prec.postfixed rest)
      | _ => none
    | none => some (suffixes t (atom w) Prec.primary rest)
  | .mark m :: rest =>
    if m = "(" then
      match expression t Prec.lowest rest with
      | some (e, .mark ")" :: rest) => some (suffixes t e Prec.primary rest)
      | _ => none
    else if m ∈ prefixes t then
      match operand t rest with
      | some (e, _, rest) => some (.prefixed m e, Prec.unary, rest)
      | none => none
    else none
termination_by (tokens.length, 0)

/-- What an expression becomes by the operators that follow it and bind at least as tightly as `least`.
`level` is the level of the expression so far. -/
def climb (t : Target) (least : Prec) (left : Reading) (level : Prec) (tokens : List Token) :
    Option (Reading × List Token) :=
  match tokens with
  | .mark m :: rest =>
    if m = "?" then
      if least ≤ Prec.conditional ∧ Prec.coalesce ≤ level then
        match expression t Prec.assignment rest with
        | some (yes, .mark ":" :: middle) =>
          if middle.length < rest.length then
            match expression t Prec.conditional middle with
            | some (no, rest') =>
              if rest'.length < rest.length then
                climb t least (.choice left yes no) Prec.conditional rest'
              else none
            | none => none
          else none
        | _ => none
      else some (left, tokens)
    else
      match fixity? t m with
      | none => some (left, tokens)
      | some f =>
        if least ≤ f.level ∧ f.left ≤ level then
          match expression t f.right rest with
          | some (right, rest') =>
            if rest'.length < rest.length then climb t least (.infixed m left right) f.level rest' else none
          | none => none
        else some (left, tokens)
  | tokens => some (left, tokens)
termination_by (tokens.length, 0)

end

/-- **The expression that a text is** in a target, if it is one. -/
def read (t : Target) (text : String) : Option Reading :=
  match scan (marks t) text.toList with
  | none => none
  | some tokens =>
    match expression t Prec.lowest tokens with
    | some (e, []) => some e
    | _ => none

/-! ## What may follow -/

/-- The level of the operator that a mark goes on with, if it is one between operands. -/
def continues? (t : Target) (m : String) : Option Prec :=
  if m = "?" then some Prec.conditional else (fixity? t m).map (·.level)

/-- The levels below this one leave an expression as it is: it is the least level of its last operand. -/
def bound (p : Prec) : Prec := if p ≤ Prec.conditional then p else p + 1

/-- What follows an expression of a level does not go on with it. -/
def Closes (t : Target) (p : Prec) (rest : List Token) : Prop :=
  ∀ m, rest.head? = some (.mark m) → m ≠ "." ∧ m ∉ counters t ∧ ∀ q ∈ continues? t m, q < bound p

variable {t : Target} {m : String}

theorem le_bound (p : Prec) : p ≤ bound p := by
  grind [bound]

theorem bound_mono {p q : Prec} (h : p ≤ q) : bound p ≤ bound q := by
  grind [bound]

theorem Closes.mono {p q : Prec} (h : Closes t p rest) (le : p ≤ q) : Closes t q rest := by
  intro m hm
  obtain ⟨dot, counter, level⟩ := h m hm
  exact ⟨dot, counter, fun l hl => Nat.lt_of_lt_of_le (level l hl) (bound_mono le)⟩

theorem Closes.nil (p : Prec) : Closes t p [] := by
  intro m hm
  cases hm

theorem continues?_eq_none (hm : m ∈ [")", ":"]) : continues? t m = none := by
  revert m
  cases t <;> decide

/-- A bracket or a colon ends every expression. -/
theorem Closes.of_not_continues (hm : m ∈ [")", ":"]) (p : Prec) (rest : List Token) :
    Closes t p (.mark m :: rest) := by
  intro m' hm'
  cases hm'
  refine ⟨?_, ?_, by simp [continues?_eq_none hm]⟩
  · rintro rfl
    exact absurd hm (by decide)
  · revert m
    cases t <;> decide

/-- An expression stays as it is before an operator of a lower level. -/
theorem climb_stop {least : Prec} (h : ∀ m, rest.head? = some (.mark m) → ∀ q ∈ continues? t m, q < least) :
    climb t least e level rest = some (e, rest) := by
  rcases rest with _ | ⟨m | w, rest⟩
  · rw [climb]
    simp
  · rw [climb]
    simp
  · have below := h _ rfl
    rw [climb]
    by_cases question : w = "?"
    · have : Prec.conditional < least := below _ (by simp [continues?, question])
      rw [if_pos question, if_neg (fun both => absurd both.1 (Nat.not_le_of_lt this))]
    · rw [if_neg question]
      cases hf : fixity? t w with
      | none => rfl
      | some f =>
        have : f.level < least := below _ (by simp [continues?, question, hf])
        simp only
        rw [if_neg (fun both => absurd both.1 (Nat.not_le_of_lt this))]

theorem suffixes_stop (h : ∀ m, rest.head? = some (.mark m) → m ∉ counters t) : suffixes t e level rest = (e, level, rest) := by
  rcases rest with _ | ⟨w | m, rest⟩
  · simp only [suffixes]
  · simp only [suffixes]
  · simp only [suffixes, if_neg (h m rfl)]

/-! ## How operators bind -/

/-- What holds of every operator between two operands. -/
structure Fixity.Sound (t : Target) (op : String) (f : Fixity) : Prop where
  level_le : f.level ≤ f.left
  level_lt : f.level < bound f.left
  right_eq : bound f.level = f.right
  loose : f.level < Prec.unary
  question : op ≠ "?"
  dot : op ≠ "."
  counter : op ∉ counters t

/-- The rows of the tables: levels between those of a choice and of a prefix operator, and no mark that is read
in another way. -/
theorem levels_rows (t : Target) : ∀ row ∈ t.levels,
    Prec.coalesce ≤ row.2 ∧ row.2 < Prec.cast ∧ row.1 ≠ "?" ∧ row.1 ≠ "." ∧ row.1 ∉ counters t := by
  cases t <;> decide

theorem assignments_marks : ∀ op ∈ assignments,
    op ≠ "?" ∧ op ≠ "." ∧ op ∉ counters .cpp := by decide

theorem fixity_sound {op : String} {f : Fixity} (h : fixity? t op = some f) : f.Sound t op := by
  unfold fixity? at h
  split at h
  · next assigns =>
    cases h
    obtain ⟨question, dot, counter⟩ := assignments_marks op assigns
    refine ⟨by decide, by decide, by decide, by decide, question, dot, ?_⟩
    cases t
    all_goals first | exact counter | exact not_mem_nil
  · obtain ⟨p, hp, rfl⟩ := Option.map_eq_some_iff.mp h
    obtain ⟨low, high, question, dot, counter⟩ := levels_rows t _ (mem_of_lookup hp)
    have left : p ≤ (if (t.dialect.comparesOnce && isComparison op) = true then p + 1 else p) := by
      split
      · exact Nat.le_succ p
      · exact Nat.le_refl p
    have right : bound p = p + 1 := if_neg (Nat.not_le_of_lt low)
    refine ⟨left, ?_, right, Nat.lt_trans high (by decide), question, dot, counter⟩
    exact Nat.lt_of_lt_of_le (Nat.lt_of_lt_of_eq (Nat.lt_succ_self p) right.symm) (bound_mono left)

/-! ## Productions -/

/-- **Some tokens are an expression of a level**, in front of whatever does not go on with it. An expression
that binds as tightly as a prefix operator is an operand by itself, and one that binds as tightly as a postfix
operator may have further ones behind it. -/
structure Reads (t : Target) (tokens : List Token) (p : Prec) (e : Reading) : Prop where
  nonempty : tokens ≠ []
  whole : ∀ least ≤ p, ∀ rest, Closes t p rest →
    expression t least (tokens ++ rest) = climb t least e p rest
  tight : Prec.unary ≤ p → ∀ rest, Closes t p rest → operand t (tokens ++ rest) = some (e, p, rest)
  atomic : Prec.postfixed ≤ p → ∀ rest, rest.head? ≠ some (.mark ".") →
    operand t (tokens ++ rest) = some (suffixes t e p rest)

theorem expression_of_operand {tokens : List Token} {p : Prec} (nonempty : tokens ≠ [])
    (h : operand t (tokens ++ rest) = some (e, p, rest)) (least : Prec) :
    expression t least (tokens ++ rest) = climb t least e p rest := by
  have shorter : rest.length < (tokens ++ rest).length := by
    rw [length_append]
    exact Nat.lt_add_of_pos_left (length_pos_of_ne_nil nonempty)
  rw [expression, h]
  simp only [if_pos shorter]

namespace Reads

variable {tokens : List Token} {e : Reading} {p : Prec} {op : String}

theorem of_tight (nonempty : tokens ≠ []) (loose : p < Prec.postfixed)
    (tight : ∀ rest, Closes t p rest → operand t (tokens ++ rest) = some (e, p, rest)) :
    Reads t tokens p e where
  nonempty := nonempty
  whole := fun least _ rest closes => expression_of_operand nonempty (tight rest closes) least
  tight := fun _ => tight
  atomic := fun hp => absurd hp (Nat.not_le_of_lt loose)

theorem of_atomic (nonempty : tokens ≠ [])
    (atomic : ∀ rest, rest.head? ≠ some (.mark ".") → operand t (tokens ++ rest) = some (suffixes t e p rest)) :
    Reads t tokens p e := by
  have tight : ∀ rest, Closes t p rest → operand t (tokens ++ rest) = some (e, p, rest) := by
    intro rest closes
    rw [atomic rest (fun dot => (closes _ dot).1 rfl), suffixes_stop (fun m hm => (closes m hm).2.1)]
  refine ⟨nonempty, fun least _ rest closes => ?_, fun _ => tight, fun _ => atomic⟩
  exact expression_of_operand nonempty (tight rest closes) least

theorem of_whole (nonempty : tokens ≠ []) (loose : p < Prec.unary)
    (whole : ∀ least ≤ p, ∀ rest, Closes t p rest → expression t least (tokens ++ rest) = climb t least e p rest) :
    Reads t tokens p e where
  nonempty := nonempty
  whole := whole
  tight := fun hp => absurd hp (Nat.not_le_of_lt loose)
  atomic := fun hp => absurd (Nat.le_trans (by decide) hp) (Nat.not_le_of_lt loose)

section

variable (h : Reads t tokens p e)
include h

theorem expression_eq {least : Prec} (le : least ≤ p) {rest : List Token} (closes : Closes t p rest)
    (stops : ∀ m, rest.head? = some (.mark m) → ∀ q ∈ continues? t m, q < least) :
    expression t least (tokens ++ rest) = some (e, rest) := by
  rw [h.whole least le rest closes, climb_stop stops]

/-- Nothing goes on with an expression before a bracket or a colon. -/
theorem expression_eq_before {least : Prec} (le : least ≤ p) {m : String} (hm : m ∈ [")", ":"]) (rest : List Token) :
    expression t least (tokens ++ .mark m :: rest) = some (e, .mark m :: rest) := by
  refine h.expression_eq le (.of_not_continues hm p rest) ?_
  intro m' hm'
  cases hm'
  simp [continues?_eq_none hm]

omit h in
theorem word {w : String} : Reads t [.word w] Prec.primary (atom w) := by
  refine of_atomic (cons_ne_nil _ _) ?_
  intro rest dot
  have plain : truncates? t w rest = none := by
    unfold truncates?
    split
    · exact absurd rfl dot
    · rfl
  rw [singleton_append, operand]
  split
  · next inner h => rw [plain] at h; cases h
  · rfl

/-- Parentheses around an expression. -/
theorem parens : Reads t (.mark "(" :: tokens ++ [.mark ")"]) Prec.primary e := by
  refine of_atomic (cons_ne_nil _ _) ?_
  intro rest _
  have inner := h.expression_eq_before (Nat.zero_le p) (m := ")") (by decide) rest
  rw [cons_append, cons_append, append_assoc, singleton_append, operand, if_pos rfl]
  simp only [inner]

omit h in
/-- `Math.trunc` of an expression. -/
theorem truncated (h : Reads .typescript tokens p e) :
    Reads .typescript
      (.word "Math" :: .mark "." :: .word "trunc" :: .mark "(" :: tokens ++ [.mark ")"])
      Prec.postfixed (.call "Math.trunc" e) := by
  refine of_atomic (cons_ne_nil _ _) ?_
  intro rest _
  have inner := h.expression_eq_before (Nat.zero_le p) (m := ")") (by decide) rest
  have called : ∀ rest, truncates? .typescript "Math"
      (.mark "." :: .word "trunc" :: .mark "(" :: rest) = some rest := fun _ => rfl
  simp only [cons_append, append_assoc, nil_append]
  rw [operand]
  split
  · next inner' h' =>
    cases h'
    simp only [inner]
  · next h' => rw [called] at h'; cases h'

theorem prefixed (le : Prec.unary ≤ p) (hop : op ∈ prefixes t) : Reads t (.mark op :: tokens) Prec.unary (.prefixed op e) := by
  refine of_tight (cons_ne_nil _ _) (by decide) ?_
  intro rest closes
  have bracket : op ≠ "(" := by
    rintro rfl
    revert hop
    cases t <;> decide
  rw [cons_append, operand, if_neg bracket, if_pos hop, h.tight le rest (closes.mono le)]

theorem postfixed (le : Prec.postfixed ≤ p) (hop : op ∈ counters t) :
    Reads t (tokens ++ [.mark op]) Prec.postfixed (.postfixed op e) := by
  refine of_atomic (by simp) ?_
  intro rest _
  have dot : (Token.mark op :: rest).head? ≠ some (.mark ".") := by
    intro heq
    cases heq
    revert hop
    cases t <;> decide
  rw [append_assoc, singleton_append, h.atomic le _ dot]
  simp only [suffixes, if_pos hop]

end

/-- A binary operator or an assignment between two expressions that bind tightly enough. -/
theorem infixed {ls rs : List Token} {q : Prec} {l r : Reading} {f : Fixity} (hl : Reads t ls p l) (hr : Reads t rs q r)
    (hf : fixity? t op = some f) (left : f.left ≤ p) (right : f.right ≤ q) :
    Reads t (ls ++ .mark op :: rs) f.level (.infixed op l r) := by
  have sound := fixity_sound hf
  have le : f.level ≤ p := Nat.le_trans sound.level_le left
  have goes : continues? t op = some f.level := by
    simp only [continues?, if_neg sound.question, hf, Option.map_some]
  refine of_whole (by simp) sound.loose ?_
  intro least hleast rest closes
  have before : Closes t p (.mark op :: (rs ++ rest)) := by
    intro m hm
    cases hm
    refine ⟨sound.dot, sound.counter, ?_⟩
    intro l hlevel
    rw [goes] at hlevel
    cases hlevel
    exact Nat.lt_of_lt_of_le sound.level_lt (bound_mono left)
  -- What closes the whole closes its right operand, since the two have the same bound.
  have after : Closes t q rest := by
    intro m hm
    obtain ⟨dot, counter, level⟩ := closes m hm
    refine ⟨dot, counter, fun l hlevel => ?_⟩
    exact Nat.lt_of_lt_of_le (sound.right_eq ▸ level l hlevel) (Nat.le_trans right (le_bound q))
  have stops : ∀ m, rest.head? = some (.mark m) → ∀ l ∈ continues? t m, l < f.right := by
    intro m hm l hlevel
    exact sound.right_eq ▸ (closes m hm).2.2 l hlevel
  have operandRight := hr.expression_eq right after stops
  have shorter : rest.length < (rs ++ rest).length := by
    rw [length_append]
    exact Nat.lt_add_of_pos_left (length_pos_of_ne_nil hr.nonempty)
  rw [append_assoc, cons_append, hl.whole least (Nat.le_trans hleast le) _ before, climb,
    if_neg sound.question]
  simp only [hf, if_pos (And.intro hleast left), operandRight, if_pos shorter]

/-- A choice between two expressions. -/
theorem choice {cs ys ns : List Token} {q r : Prec} {c y n : Reading} (hc : Reads t cs p c) (hy : Reads t ys q y)
    (hn : Reads t ns r n) (cond : Prec.coalesce ≤ p) (yes : Prec.assignment ≤ q) (no : Prec.conditional ≤ r) :
    Reads t (cs ++ .mark "?" :: (ys ++ .mark ":" :: ns)) Prec.conditional (.choice c y n) := by
  refine of_whole (by simp) (by decide) ?_
  intro least hleast rest closes
  have before : Closes t p (.mark "?" :: (ys ++ .mark ":" :: ns ++ rest)) := by
    intro m hm
    cases hm
    refine ⟨by decide, by cases t <;> decide, ?_⟩
    intro l hl
    cases hl
    exact Nat.lt_of_lt_of_le (by decide) (bound_mono cond)
  have middle := hy.expression_eq_before yes (m := ":") (by decide) (ns ++ rest)
  have last := hn.expression_eq no (closes.mono no) fun m hm => (closes m hm).2.2
  have shorter : (ns ++ rest).length < (ys ++ .mark ":" :: (ns ++ rest)).length ∧
      rest.length < (ys ++ .mark ":" :: (ns ++ rest)).length := by
    simp only [length_append, length_cons]
    omega
  rw [append_assoc, cons_append,
    hc.whole least (Nat.le_trans hleast (Nat.le_trans (by decide) cond)) _ before, climb, if_pos rfl,
    if_pos (And.intro hleast cond)]
  simp only [append_assoc, cons_append, middle, if_pos shorter.1, last, if_pos shorter.2]

end Reads

end Polyglot.Operators
