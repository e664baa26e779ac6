import Polyglot.Proofs.Basic
import Polyglot.Target.Precedence

/-!
# The level of template text

A text that a template gave is taken for a chain of calls and accesses unless it has white space or an operator outside of
brackets and literals. `Lexing` reads a text with its literals: a quote ends one unless an odd number of backslashes stands
before it.

The level is found by a scan that looks at one character before a quote only. As long as no literal ends in an escaped
backslash, the level is exact (`templatePrecedence_eq_postfixed_iff`); behind such a literal, an operator may be hidden.
-/

namespace Polyglot

open List

/-! ## Reading literals and brackets -/

/-- What is known at a place of a text. -/
structure Lexing where
  /-- The quote that opened the literal around the place. -/
  quote : Option Char := none
  /-- How many backslashes stand right before the place. -/
  escapes : Nat := 0
  /-- The closing brackets that are still to come, the next one first. -/
  awaited : List Char := []
deriving DecidableEq

namespace Lexing

/-- The bracket that closes what a bracket opens. -/
def closer? : Char → Option Char
  | '(' => some ')'
  | '[' => some ']'
  | '\x7b' => some '\x7d'
  | _ => none

/-- Behind one more character; a bracket that closes no open one is refused. -/
def step (s : Lexing) (c : Char) : Option Lexing :=
  let s' := { s with escapes := if c = '\\' then s.escapes + 1 else 0 }
  match s.quote with
  | some q => some { s' with quote := if c = q ∧ s.escapes % 2 = 0 then none else some q }
  | none =>
    if c = '"' ∨ c = '\'' then some { s' with quote := some c }
    else
      match closer? c with
      | some d => some { s' with awaited := d :: s.awaited }
      | none =>
        if c ∈ [')', ']', '\x7d'] then
          if s.awaited.head? = some c then some { s' with awaited := s.awaited.tail } else none
        else some s'

def after (s : Lexing) (cs : List Char) : Option Lexing := cs.foldlM step s

/-- **The reading of a text from its start.** -/
def ofChars (cs : List Char) : Option Lexing := after {} cs

/-- Outside of brackets and literals. -/
def IsOutside (s : Lexing) : Prop := s.quote = none ∧ s.awaited = []

instance (s : Lexing) : Decidable s.IsOutside := instDecidableAnd

variable {s s' : Lexing} {past cs more : List Char} {c : Char}

theorem isSome_closer? : (closer? c).isSome ↔ c ∈ ['(', '[', '\x7b'] := by
  unfold closer?
  split <;> simp_all

theorem after_append : s.after (cs ++ more) = (s.after cs).bind (·.after more) := foldlM_append

theorem ofChars_snoc (read : ofChars past = some s) : ofChars (past ++ [c]) = s.step c := by
  change after {} (past ++ [c]) = _
  rw [after_append, show after {} past = some s from read]
  exact foldlM_cons.trans (bind_pure _)

theorem after_cons_eq_some (read : s.after (c :: cs) = some s') : ∃ next, s.step c = some next ∧ next.after cs = some s' :=
  Option.bind_eq_some_iff.mp (foldlM_cons.symm.trans read)

theorem escapes_of_step (moved : s.step c = some s') : s'.escapes = if c = '\\' then s.escapes + 1 else 0 := by
  unfold step at moved
  grind

/-- The reading knows whether the character before is a backslash. -/
theorem getLast?_eq_iff (read : ofChars past = some s) : past.getLast? = some '\\' ↔ 0 < s.escapes := by
  rcases eq_nil_or_concat past with rfl | ⟨past, c, rfl⟩
  · obtain rfl := Option.some.inj read
    simp
  · rw [concat_eq_append] at read ⊢
    obtain ⟨before, _, behind⟩ := Option.bind_eq_some_iff.mp (after_append.symm.trans read)
    obtain ⟨next, moved, ended⟩ := after_cons_eq_some behind
    obtain rfl := Option.some.inj ended
    rw [escapes_of_step moved]
    grind

/-- Literals are opened by a double or a single quote only. -/
theorem quote_of_after (read : s.after cs = some s') (start : ∀ q, s.quote = some q → q = '"' ∨ q = '\'') :
    ∀ q, s'.quote = some q → q = '"' ∨ q = '\'' := by
  induction cs generalizing s with
  | nil =>
    obtain rfl := Option.some.inj read
    exact start
  | cons c cs ih =>
    obtain ⟨next, moved, later⟩ := after_cons_eq_some read
    refine ih later ?_
    unfold step at moved
    grind

end Lexing

/-! ## Bare operators -/

/-- Is the character one of a `::` or of a `->`, given its neighbours? -/
def IsMarked (prev : Option Char) (c : Char) (next : Option Char) : Prop :=
  c = ':' ∧ (prev = some ':' ∨ next = some ':') ∨ c = '-' ∧ next = some '>' ∨ c = '>' ∧ prev = some '-'

def IsLoose (c : Char) : Prop := Text.isBlank c = true ∨ isOperatorChar c = true

/-- The characters behind some others, up to further ones, have no white space and no operator outside of brackets and
literals, other than in `::` and `->`. -/
def IsTightWithin (past cs more : List Char) : Prop :=
  ∀ before c rest s, cs = before ++ c :: rest → Lexing.ofChars (past ++ before) = some s → s.IsOutside → IsLoose c →
    IsMarked (past ++ before).getLast? c (rest ++ more).head?

/-- **There is no white space and no operator outside of brackets and literals**, other than in `::` and `->`. -/
def IsTight (text : String) : Prop :=
  ∀ before c rest s, text.toList = before ++ c :: rest → Lexing.ofChars before = some s → s.IsOutside → IsLoose c →
    IsMarked before.getLast? c rest.head?

/-- Every bracket outside of literals is closed by one of its own, in order. -/
def IsNested (text : String) : Prop := ∃ s, Lexing.ofChars text.toList = some s ∧ s.awaited = []

/-- No literal among the characters behind some others ends in an escaped backslash. -/
def EndsPlainly (past cs : List Char) : Prop :=
  ∀ before c rest s, cs = before ++ c :: rest → Lexing.ofChars (past ++ before) = some s → s.quote = some c →
    s.escapes % 2 = 0 → s.escapes = 0

section Places

variable {past cs more : List Char} {c : Char}

theorem isTightWithin_cons : IsTightWithin past (c :: cs) more ↔
    (∀ s, Lexing.ofChars past = some s → s.IsOutside → IsLoose c → IsMarked past.getLast? c (cs ++ more).head?) ∧
      IsTightWithin (past ++ [c]) cs more := by
  have places := forall_places_cons (a := c) (l := cs) (P := fun before c rest => ∀ s,
    Lexing.ofChars (past ++ before) = some s → s.IsOutside → IsLoose c →
      IsMarked (past ++ before).getLast? c (rest ++ more).head?)
  simp only [IsTightWithin, append_nil] at places ⊢
  grind

theorem endsPlainly_cons : EndsPlainly past (c :: cs) ↔
    (∀ s, Lexing.ofChars past = some s → s.quote = some c → s.escapes % 2 = 0 → s.escapes = 0) ∧
      EndsPlainly (past ++ [c]) cs := by
  have places := forall_places_cons (a := c) (l := cs) (P := fun before c _ => ∀ s,
    Lexing.ofChars (past ++ before) = some s → s.quote = some c → s.escapes % 2 = 0 → s.escapes = 0)
  simp only [EndsPlainly, append_nil] at places ⊢
  grind

instance decidableEndsPlainly : (past cs : List Char) → Decidable (EndsPlainly past cs)
  | _, [] => isTrue (by
      intro before c rest s split
      simp at split)
  | past, c :: cs =>
    have := decidableEndsPlainly (past ++ [c]) cs
    have : Decidable (∀ s, Lexing.ofChars past = some s → s.quote = some c → s.escapes % 2 = 0 → s.escapes = 0) :=
      inferInstanceAs (Decidable (∀ s ∈ Lexing.ofChars past, s.quote = some c → s.escapes % 2 = 0 → s.escapes = 0))
    decidable_of_iff _ endsPlainly_cons.symm

/-- More characters behind a text do no harm to it. -/
theorem IsTightWithin.append (tight : IsTightWithin past cs []) : IsTightWithin past cs more := by
  intro before c rest s split read outside loose
  have marked := tight before c rest s split read outside loose
  cases rest with
  | nil =>
    unfold IsMarked at marked ⊢
    grind
  | cons d rest => exact marked

end Places

variable {text : String} {s : Lexing} {q : Char}

theorem isTight_iff : IsTight text ↔ IsTightWithin [] text.toList [] := by
  simp only [IsTight, IsTightWithin, nil_append, append_nil]

/-! ## The scan -/

section Scan

variable {past cs more : List Char} {s s' : Lexing} {c : Char}

theorem isMarked_iff (prev : Option Char) (c : Char) (next : Option Char) :
    IsMarked prev c next ↔ (next.any (isAccessMark c) || prev.any (isAccessMark · c)) = true := by
  cases prev <;> cases next <;> simp [IsMarked, isAccessMark] <;> grind

theorem not_isLoose : ∀ c ∈ ['"', '\'', '(', '[', '\x7b', ')', ']', '\x7d'], ¬ IsLoose c := by
  unfold IsLoose
  exact forall_mem_of_all rfl

/-- **One step of the scan.** As long as the quote at hand does not end its literal behind an escaped backslash, the scan
goes on as the reading does, and stops at the characters that stand loose outside of brackets and literals. -/
theorem hasBareOperator_cons {prev : Option Char} (last : prev = some '\\' ↔ 0 < s.escapes) (moved : s.step c = some s')
    (plain : s.quote = some c → s.escapes % 2 = 0 → s.escapes = 0) :
    hasBareOperator prev s.quote s.awaited.length (c :: cs) = false ↔ (s.IsOutside → IsLoose c → IsMarked prev c cs.head?) ∧
        hasBareOperator (some c) s'.quote s'.awaited.length cs = false := by
  obtain ⟨quote, escapes, awaited⟩ := s
  cases quote with
  | some q =>
    have closes : (decide (c = q) && prev != some '\\') = decide (c = q ∧ escapes % 2 = 0) := by grind
    have inside : ¬ Lexing.IsOutside ⟨some q, escapes, awaited⟩ := by simp [Lexing.IsOutside]
    obtain rfl := Option.some.inj moved
    simp only [hasBareOperator, closes, decide_eq_true_eq, inside, false_implies, true_and]
  | none =>
    have special := not_isLoose c
    have outside : Lexing.IsOutside ⟨none, escapes, awaited⟩ ↔ (awaited.length : Int) = 0 := by simp [Lexing.IsOutside]
    have marked := isMarked_iff prev c cs.head?
    simp only [hasBareOperator, Lexing.step] at moved ⊢
    by_cases quotes : c = '"' ∨ c = '\''
    · have tight : ¬ IsLoose c := by grind
      rw [if_pos quotes] at moved
      obtain rfl := Option.some.inj moved
      simp [tight, quotes]
    by_cases opens : c ∈ ['(', '[', '\x7b']
    · have tight : ¬ IsLoose c := by grind
      obtain ⟨d, closed⟩ := Option.isSome_iff_exists.mp (Lexing.isSome_closer?.mpr opens)
      rw [if_neg quotes, closed] at moved
      obtain rfl := Option.some.inj moved
      simp [tight, quotes, opens]
    have closed : Lexing.closer? c = none := by simpa using mt Lexing.isSome_closer?.mp opens
    rw [if_neg quotes, closed] at moved
    by_cases closes : c ∈ [')', ']', '\x7d']
    · have tight : ¬ IsLoose c := by grind
      simp only [if_pos closes, Option.ite_none_right_eq_some, Option.some.injEq] at moved
      obtain ⟨awaits, rfl⟩ := moved
      obtain ⟨rest, rfl⟩ := head?_eq_some_iff.mp awaits
      simp [tight, quotes, opens, closes]
    rw [if_neg closes] at moved
    rw [IsLoose]
    grind

/-- **A run of the scan.** It passes the characters that the reading finds tight, and then scans what comes behind them
from where the reading is. -/
theorem hasBareOperator_append (read : Lexing.ofChars past = some s) (behind : s.after cs = some s')
    (plain : EndsPlainly past cs) : hasBareOperator past.getLast? s.quote s.awaited.length (cs ++ more) = false ↔
      IsTightWithin past cs more ∧ hasBareOperator (past ++ cs).getLast? s'.quote s'.awaited.length more = false := by
  induction cs generalizing past s with
  | nil =>
    obtain rfl := Option.some.inj behind
    have none_left : IsTightWithin past [] more := by
      intro before c rest _ split
      simp at split
    simp [none_left]
  | cons c cs ih =>
    obtain ⟨plainHere, plainLater⟩ := endsPlainly_cons.mp plain
    obtain ⟨next, moved, later⟩ := Lexing.after_cons_eq_some behind
    have later := ih ((Lexing.ofChars_snoc read).trans moved) later plainLater
    rw [getLast?_concat] at later
    rw [cons_append, hasBareOperator_cons (Lexing.getLast?_eq_iff read) moved (plainHere s read), later,
      isTightWithin_cons, and_assoc]
    simp [read]

theorem hasBareOperator_start (read : Lexing.ofChars cs = some s) (plain : EndsPlainly [] cs) (more : List Char) :
    hasBareOperator none none 0 (cs ++ more) = false ↔
      IsTightWithin [] cs more ∧ hasBareOperator cs.getLast? s.quote s.awaited.length more = false :=
  hasBareOperator_append (s := {}) rfl read plain

end Scan

theorem templatePrecedence_eq_postfixed :
    templatePrecedence text = Prec.postfixed ↔ hasBareOperator none none 0 text.toList = false := by
  unfold templatePrecedence
  cases hasBareOperator none none 0 text.toList <;> simp

/-- The text with the literal that is open at its end ended, and an empty literal added to it. -/
def withSum (text : String) (q : Char) : String := text ++ String.ofList [q, '+', q, q]

section

variable (quotes : q = '"' ∨ q = '\'')
include quotes

/-- The reading ends the literal at the quote. -/
theorem Lexing.step_end (within : s.quote = some q) (even : s.escapes % 2 = 0) :
    s.step q = some { s with quote := none, escapes := 0 } := by
  rcases quotes with rfl | rfl <;> simp [step, within, even]

/-- Behind an escaped backslash the scan takes the quote that ends a literal for a part of it, and what follows too. -/
theorem hasBareOperator_hidden : hasBareOperator (some '\\') (some q) 0 [q, '+', q, q] = false := by
  rcases quotes with rfl | rfl <;> decide

theorem isNested_withSum (read : Lexing.ofChars text.toList = some s) (within : s.quote = some q) (outer : s.awaited = [])
    (even : s.escapes % 2 = 0) : IsNested (withSum text q) := by
  refine ⟨{ s with quote := none, escapes := 0 }, ?_, outer⟩
  have ended := Lexing.step_end quotes within even
  have read : Lexing.after {} text.toList = some s := read
  rw [withSum, String.toList_append, String.toList_ofList, Lexing.ofChars, Lexing.after_append, read]
  change (s.step q).bind _ = _
  rw [ended]
  rcases quotes with rfl | rfl <;> rfl

/-- The sign stands outside of the literal. -/
theorem not_isTight_withSum (read : Lexing.ofChars text.toList = some s) (within : s.quote = some q) (outer : s.awaited = [])
    (even : s.escapes % 2 = 0) : ¬ IsTight (withSum text q) := by
  intro tight
  have ended := (Lexing.ofChars_snoc read).trans (Lexing.step_end quotes within even)
  have marked := tight (text.toList ++ [q]) '+' [q, q] _ (by simp [withSum]) ended ⟨rfl, outer⟩ (.inr (by decide))
  simp [IsMarked] at marked

end

/-- **A text is taken for a chain of calls and accesses exactly when it is one.** This holds of nested texts none of whose
literals ends in an escaped backslash. Behind a literal that is about to end so, the scan stays in the literal and passes
over an operator. -/
theorem templatePrecedence_eq_postfixed_iff (text : String) :
    (IsNested text → EndsPlainly [] text.toList → (templatePrecedence text = Prec.postfixed ↔ IsTight text)) ∧
      ∀ s q, Lexing.ofChars text.toList = some s → s.quote = some q → s.awaited = [] → 0 < s.escapes →
        s.escapes % 2 = 0 → EndsPlainly [] text.toList → IsTight text →
          IsNested (withSum text q) ∧ templatePrecedence (withSum text q) = Prec.postfixed ∧ ¬ IsTight (withSum text q) := by
  constructor
  · rintro ⟨s, read, _⟩ plain
    have scan := hasBareOperator_start read plain []
    rw [templatePrecedence_eq_postfixed, isTight_iff]
    simpa [hasBareOperator] using scan
  · intro s q read within outer escaped even plain tight
    have quotes : q = '"' ∨ q = '\'' := Lexing.quote_of_after read (by simp) q within
    refine ⟨isNested_withSum quotes read within outer even, ?_, not_isTight_withSum quotes read within outer even⟩
    have last := (Lexing.getLast?_eq_iff read).mpr escaped
    rw [templatePrecedence_eq_postfixed, withSum, String.toList_append, String.toList_ofList, hasBareOperator_start read plain,
      last, within, outer]
    exact ⟨(isTight_iff.mp tight).append, hasBareOperator_hidden quotes⟩

/-- A call with an escaped quote in a literal and an operator in its brackets is a chain. A text that stops behind an escaped
backslash in a literal hides a sum. -/
theorem templatePrecedence_eq_postfixed_iff_call :
    (IsNested "std::max(\"\\\"(\", a + b)->c" ∧ EndsPlainly [] "std::max(\"\\\"(\", a + b)->c".toList ∧
        templatePrecedence "std::max(\"\\\"(\", a + b)->c" = Prec.postfixed ∧ IsTight "std::max(\"\\\"(\", a + b)->c") ∧
      Lexing.ofChars "'\\\\".toList = some ⟨some '\'', 2, []⟩ ∧
        templatePrecedence (withSum "'\\\\" '\'') = Prec.postfixed ∧ ¬ IsTight (withSum "'\\\\" '\'') := by
  have chain : templatePrecedence "std::max(\"\\\"(\", a + b)->c" = Prec.postfixed := by decide
  have iff := (templatePrecedence_eq_postfixed_iff "std::max(\"\\\"(\", a + b)->c").1 ⟨_, rfl, rfl⟩ (by decide)
  have tight := ((templatePrecedence_eq_postfixed_iff "'\\\\").1 ⟨_, rfl, rfl⟩ (by decide)).mp (by decide)
  have hidden := (templatePrecedence_eq_postfixed_iff "'\\\\").2 ⟨some '\'', 2, []⟩ '\'' rfl rfl rfl (by decide) (by decide)
    (by decide) tight
  exact ⟨⟨⟨_, rfl, rfl⟩, by decide, chain, iff.mp chain⟩, rfl, hidden.2⟩

/-- A literal that ends in an escaped backslash, and a sum that is taken for a chain. -/
theorem templatePrecedence_sum_hidden :
    IsNested "\"a\\\\\" + \"b\"" ∧ templatePrecedence "\"a\\\\\" + \"b\"" = Prec.postfixed ∧
      ¬ IsTight "\"a\\\\\" + \"b\"" := by
  refine ⟨⟨_, rfl, rfl⟩, by decide, fun tight => ?_⟩
  have marked := tight "\"a\\\\\"".toList ' ' "+ \"b\"".toList _ rfl rfl ⟨rfl, rfl⟩ (.inl (by decide))
  simp [IsMarked] at marked

end Polyglot
