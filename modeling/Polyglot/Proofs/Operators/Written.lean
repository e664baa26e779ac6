import Polyglot.Proofs.Operators.Grammar

/-!
# Texts that read as expressions

`Written t text p e` says that a text reads as the tree `e` and that its outermost operator is on level `p`.
`Rendered.operand` keeps it: the parentheses that it adds are around what would be torn apart otherwise. There is
one lemma for each way in which texts are put together.
-/

namespace Polyglot.Operators

open List

/-- What an expression begins with. -/
def Opens (text : List Char) : Prop :=
  ∃ c ∈ text.head?, isWordChar c = true ∨ c ∈ ['(', '-', '!', '+']

/-- **The text is an expression** of a level. -/
structure Written (t : Target) (text : String) (p : Prec) (e : Reading) : Prop where
  opens : Opens text.toList
  reads : ∃ tokens, Scans (marks t) text.toList tokens ∧ Reads t tokens p e

variable {t : Target}

variable {a : List Char} {m op : String}

theorem Opens.append (h : Opens a) (b : List Char) : Opens (a ++ b) := by
  obtain ⟨c, hc, first⟩ := h
  refine ⟨c, ?_, first⟩
  rw [head?_append, Option.mem_def.mp hc]
  rfl

theorem Opens.ne_nil (h : Opens a) : a ≠ [] := by
  rintro rfl
  obtain ⟨c, hc, -⟩ := h
  cases hc

/-! ## Marks in a text -/

/-- A mark is not empty, and it has no blanks and no word characters. -/
theorem mark_chars (hm : m ∈ marks t) : m.toList ≠ [] ∧ ∀ c ∈ m.toList, c ≠ ' ' ∧ isWordChar c = false := by
  have all : (marks t).all (fun m => !m.toList.isEmpty && m.toList.all fun c => c != ' ' && !isWordChar c) = true := by
    cases t <;> decide +kernel
  simpa using all_eq_true.mp all m hm

theorem beginsMark_of_mem (hm : m ∈ marks t) : beginsMark m = true := by
  obtain ⟨nonempty, chars⟩ := mark_chars hm
  obtain ⟨c, cs, first⟩ := exists_cons_of_ne_nil nonempty
  have begins := chars c (first ▸ mem_cons_self)
  simp [beginsMark, first, begins]

theorem extension_chars {c : Char} (hc : c ∈ extensions (marks t) m) : c ≠ ' ' ∧ isWordChar c = false := by
  obtain ⟨u, hu, here⟩ := exists_mem_of_mem_extensions hc
  exact (mark_chars hu).2 c here

theorem eq_of_mem_counters (hop : op ∈ counters t) : op = "++" ∨ op = "--" := by
  unfold counters at hop
  split at hop
  · cases hop
  · simpa using hop

/-- Brackets, dots and counters are complete marks, and a sign is extended by an equals sign or by itself. -/
theorem extensions_checked :
    (∀ m ∈ ["(", ")", "."] ++ counters t, extensions (marks t) m = []) ∧
      extensions (marks t) "!" ⊆ ['='] ∧ extensions (marks t) "-" ⊆ ['=', '-'] := by
  cases t <;> decide +kernel

theorem not_mem_extensions (hm : m ∈ ["(", ")", "."] ++ counters t) {c : Char} : c ∉ extensions (marks t) m :=
  extensions_checked.1 m hm ▸ not_mem_nil

/-- What an expression begins with makes no other mark of the operator before it, besides a sign behind the same
sign. -/
theorem opens_not_extends {c : Char} (hop : op ∈ prefixes t) (hc : c ∈ ['(', '-', '!', '+']) (apart : op = "-" → c ≠ '-') :
    c ∉ extensions (marks t) op := by
  intro bad
  simp only [prefixes, mem_append, mem_cons, not_mem_nil, or_false] at hop
  rcases hop with (rfl | rfl) | counter
  · have sign := extensions_checked.2.2 bad
    simp only [mem_cons, not_mem_nil, or_false] at sign
    rcases sign with rfl | rfl
    · exact absurd hc (by decide)
    · exact apart rfl rfl
  · have sign := extensions_checked.2.1 bad
    rw [mem_singleton] at sign
    subst sign
    exact absurd hc (by decide)
  · exact not_mem_extensions (mem_append_right _ counter) bad

/-- Two texts around a mark, with blanks. -/
theorem Scans.between {l r : List Char} {ls rs : List Token} (hl : Scans (marks t) l ls) (hm : m ∈ marks t)
    (hr : Scans (marks t) r rs) : Scans (marks t) (l ++ ' ' :: (m.toList ++ ' ' :: r)) (ls ++ .mark m :: rs) := by
  have tail : Scans (marks t) (m.toList ++ ' ' :: r) (.mark m :: rs) := by
    refine .mark_append hm (beginsMark_of_mem hm) hr.blank (cons_ne_nil _ _) ?_
    intro c hc bad
    cases hc
    exact (extension_chars bad).1 rfl
  refine hl.append tail.blank (cons_ne_nil _ _) ?_
  intro c hc
  cases hc
  exact .inl rfl

/-! ## Ways to write -/

namespace Written

variable {text op : String} {e : Reading} {p q : Prec}

/-- **The text of an expression is read back.** -/
theorem read_eq (h : Written t text p e) : read t text = some e := by
  obtain ⟨tokens, scans, reads⟩ := h.reads
  have whole := reads.expression_eq (Nat.zero_le p) (.nil p) (by intro m hm; cases hm)
  rw [append_nil] at whole
  simp only [read, scans.scan_eq, whole]

-- Operators of one level are grouped to the left, and Rust does not compare comparisons.
example : read .java "a - b - c" =
    some (.infixed "-" (.infixed "-" (.name "a") (.name "b")) (.name "c")) := by cbv

example : read .rust "a < b == c" = none := by cbv

theorem word {w : String} (nonempty : w.toList ≠ []) (chars : ∀ c ∈ w.toList, isWordChar c = true) :
    Written t w Prec.primary (atom w) where
  opens := by
    obtain ⟨c, cs, hw⟩ := exists_cons_of_ne_nil nonempty
    exact ⟨c, by rw [hw]; rfl, .inl (chars c (hw ▸ mem_cons_self))⟩
  reads := ⟨_, Scans.word nonempty chars, String.ofList_toList ▸ Reads.word⟩

theorem parens (h : Written t text p e) : Written t ("(" ++ text ++ ")") Prec.primary e := by
  obtain ⟨tokens, scans, reads⟩ := h.reads
  have bracket : ")" ∈ marks t ∧ "(" ∈ marks t := by simp [marks]
  have inner : Scans (marks t) (text.toList ++ ")".toList) (tokens ++ [.mark ")"]) := by
    refine scans.append (.mark bracket.1 (beginsMark_of_mem bracket.1) fun _ _ => not_mem_extensions (by simp)) (by decide) ?_
    intro c hc
    cases hc
    exact .inr (.inl rfl)
  refine ⟨⟨'(', by simp, .inr (by decide)⟩, _, ?_, reads.parens⟩
  rw [String.toList_append, String.toList_append]
  exact .mark_append bracket.2 (beginsMark_of_mem bracket.2) inner (by simp) fun _ _ => not_mem_extensions (by simp)

/-- **An operand binds as tightly as its place asks for**, and reads as before. -/
theorem operand {x : Rendered} (h : Written t x.text x.prec e) (least : Prec) (le : least ≤ Prec.primary) :
    ∃ p, least ≤ p ∧ Written t (x.operand least) p e := by
  unfold Rendered.operand
  split
  · exact ⟨Prec.primary, le, h.parens⟩
  · next tight => exact ⟨x.prec, Nat.le_of_not_lt tight, h⟩

/-- An operator before its operand, which does not begin with the same sign. -/
theorem prefixed (h : Written t text p e) (le : Prec.unary ≤ p) (hop : op ∈ prefixes t)
    (apart : op = "-" → '-' ∉ text.toList.head?) : Written t (op ++ text) Prec.unary (.prefixed op e) := by
  obtain ⟨tokens, scans, reads⟩ := h.reads
  have hm : op ∈ marks t := by simp [marks, hop]
  have opens : Opens op.toList := by
    simp only [prefixes, mem_append, mem_cons, not_mem_nil, or_false] at hop
    rcases hop with (rfl | rfl) | counter
    · exact ⟨'-', rfl, .inr (by decide)⟩
    · exact ⟨'!', rfl, .inr (by decide)⟩
    · rcases eq_of_mem_counters counter with rfl | rfl
      · exact ⟨'+', rfl, .inr (by decide)⟩
      · exact ⟨'-', rfl, .inr (by decide)⟩
  refine ⟨?_, _, ?_, reads.prefixed le hop⟩
  · rw [String.toList_append]
    exact opens.append _
  · rw [String.toList_append]
    refine .mark_append hm (beginsMark_of_mem hm) scans h.opens.ne_nil ?_
    intro c hc
    obtain ⟨c', hc', first⟩ := h.opens
    cases Option.mem_unique hc hc'
    rcases first with word | sign
    · intro bad
      rw [(extension_chars bad).2] at word
      cases word
    · exact opens_not_extends hop sign fun same minus => apart same (minus ▸ hc)

theorem postfixed (h : Written t text p e) (le : Prec.postfixed ≤ p) (hop : op ∈ counters t) :
    Written t (text ++ op) Prec.postfixed (.postfixed op e) := by
  obtain ⟨tokens, scans, reads⟩ := h.reads
  have hm : op ∈ marks t := by simp [marks, prefixes, hop]
  have sign : op.toList ≠ [] ∧ ∀ c ∈ op.toList.head?, c = '+' ∨ c = '-' := by
    rcases eq_of_mem_counters hop with rfl | rfl <;> simp
  refine ⟨?_, _, ?_, reads.postfixed le hop⟩
  · rw [String.toList_append]
    exact h.opens.append _
  · rw [String.toList_append]
    refine scans.append (.mark hm (beginsMark_of_mem hm) fun _ _ => not_mem_extensions (mem_append_right _ hop)) sign.1 ?_
    exact fun c hc => .inr (.inr (sign.2 c hc))

theorem infixed {l r : String} {a b : Reading} {f : Fixity} (hl : Written t l p a) (hr : Written t r q b)
    (hop : op ∈ marks t) (hf : fixity? t op = some f) (left : f.left ≤ p) (right : f.right ≤ q) :
    Written t (l ++ " " ++ op ++ " " ++ r) f.level (.infixed op a b) := by
  obtain ⟨ls, scansLeft, readsLeft⟩ := hl.reads
  obtain ⟨rs, scansRight, readsRight⟩ := hr.reads
  have text : (l ++ " " ++ op ++ " " ++ r).toList = l.toList ++ ' ' :: (op.toList ++ ' ' :: r.toList) := by
    simp
  refine ⟨?_, _, ?_, readsLeft.infixed readsRight hf left right⟩
  · rw [text]
    exact hl.opens.append _
  · rw [text]
    exact scansLeft.between hop scansRight

theorem choice {c y n : String} {r : Prec} {a b d : Reading} (ht : t ≠ .rust) (hc : Written t c p a)
    (hy : Written t y q b) (hn : Written t n r d) (cond : Prec.coalesce ≤ p) (yes : Prec.assignment ≤ q)
    (no : Prec.conditional ≤ r) : Written t (c ++ " ? " ++ y ++ " : " ++ n) Prec.conditional (.choice a b d) := by
  obtain ⟨cs, scansCond, readsCond⟩ := hc.reads
  obtain ⟨ys, scansYes, readsYes⟩ := hy.reads
  obtain ⟨ns, scansNo, readsNo⟩ := hn.reads
  have question : "?" ∈ marks t ∧ ":" ∈ marks t := by simp [marks, ht]
  have text : (c ++ " ? " ++ y ++ " : " ++ n).toList =
      c.toList ++ ' ' :: ("?".toList ++ ' ' :: (y.toList ++ ' ' :: (":".toList ++ ' ' :: n.toList))) := by
    simp
  refine ⟨?_, _, ?_, readsCond.choice readsYes readsNo cond yes no⟩
  · rw [text]
    exact hc.opens.append _
  · rw [text]
    exact scansCond.between question.1 (scansYes.between question.2 scansNo)

/-- A truncated division is a call. -/
theorem truncated (h : Written .typescript text p e) :
    Written .typescript ("Math.trunc(" ++ text ++ ")") Prec.postfixed (.call "Math.trunc" e) := by
  obtain ⟨tokens, scans, reads⟩ := h.reads
  refine ⟨⟨'M', by simp, .inl (by decide)⟩, _, ?_, reads.truncated⟩
  intro rest delimits
  have brackets : ")" ∈ marks .typescript ∧ "(" ∈ marks .typescript ∧ "." ∈ marks .typescript := by simp [marks]
  have close : Scans (marks .typescript) ")".toList [.mark ")"] :=
    .mark brackets.1 (beginsMark_of_mem brackets.1) fun _ _ => not_mem_nil
  have inner := scans.append close (by decide) (by intro c hc; cases hc; exact .inr (.inl rfl)) rest delimits
  have text' : ("Math.trunc(" ++ text ++ ")").toList ++ rest = "Math".toList ++ (".".toList ++
      ("trunc".toList ++ ("(".toList ++ ((text.toList ++ ")".toList) ++ rest)))) := by simp
  have words : "Math".toList.all isWordChar = true ∧ "trunc".toList.all isWordChar = true := by decide
  rw [text', scan_word (by decide) (all_eq_true.mp words.1) (by intro c hc; cases hc; decide),
    scan_mark brackets.2.2 (beginsMark_of_mem brackets.2.2) (fun _ _ => not_mem_extensions (by simp)),
    scan_word (by decide) (all_eq_true.mp words.2) (by intro c hc; cases hc; decide),
    scan_mark brackets.2.1 (beginsMark_of_mem brackets.2.1) (fun _ _ => not_mem_extensions (by simp)),
    inner]
  cases scan (marks .typescript) rest with
  | none => rfl
  | some rest => simp

end Written

/-! ## Rendered operators -/

/-- **A rendering of a tree**: its text reads as the tree, and its level is the one that is noted. -/
abbrev Renders (t : Target) (x : Rendered) (e : Reading) : Prop := Written t x.text x.prec e

/-- The binary operators of the table are read as the table says. -/
theorem fixity_operator (hop : op ∈ t.levels.map (·.1)) :
    t.operator op ∈ marks t ∧ t.precedence op < Prec.cast ∧
      fixity? t (t.operator op) = some
        ⟨t.precedence op,
          if t.dialect.comparesOnce && isComparison op then t.precedence op + 1 else t.precedence op,
          t.precedence op + 1⟩ := by
  revert op
  cases t <;> decide +kernel

theorem lead_minus {text : String} : Text.hasLead "-" text = true ↔ '-' ∈ text.toList.head? := by
  unfold Text.hasLead
  cases text.toList with
  | nil => simp [Text.afterChars?]
  | cons c cs =>
    have here : (Text.afterChars? "-".toList (c :: cs)).isSome = true ↔ '-' = c := by simp [Text.afterChars?]
    rw [here, head?_cons, Option.mem_def, Option.some.injEq]
    exact eq_comm

namespace Renders

variable {x y z : Rendered} {a b c : Reading}

variable {op : String}

theorem binary (hop : op ∈ t.levels.map (·.1)) (hx : Renders t x a) (hy : Renders t y b) :
    Renders t (.binary t op x y) (.infixed (t.operator op) a b) := by
  obtain ⟨mark, loose, fixity⟩ := fixity_operator hop
  have high : t.precedence op + 1 ≤ Prec.primary := Nat.le_trans loose (by decide)
  obtain ⟨p, left, hl⟩ := hx.operand
    (if t.dialect.comparesOnce && isComparison op then t.precedence op + 1 else t.precedence op)
    (by split <;> grind)
  obtain ⟨q, right, hr⟩ := hy.operand _ high
  exact hl.infixed hr mark fixity left right

/-- The parentheses around a sign behind the same sign keep the two apart. -/
theorem unary (hop : op ∈ prefixes t) (hx : Renders t x a) : Renders t (.unary op false x) (.prefixed op a) := by
  obtain ⟨p, tight, hp⟩ := hx.operand Prec.unary (by decide)
  change Written t (op ++ if _ then "(" ++ _ ++ ")" else _) Prec.unary _
  split
  · exact hp.parens.prefixed (by decide) hop (by simp)
  · next apart =>
    refine hp.prefixed tight hop ?_
    rintro rfl lead
    exact apart (by simp [lead_minus.mpr lead])

theorem counter (hop : op ∈ counters t) (hx : Renders t x a) : Renders t (.unary op true x) (.postfixed op a) := by
  obtain ⟨p, tight, hp⟩ := hx.operand Prec.postfixed (by decide)
  exact hp.postfixed tight hop

theorem assignment (ht : t ≠ .rust) (hop : op ∈ assignments) (hx : Renders t x a) (hy : Renders t y b) :
    Renders t (.compound (x.operand Prec.unary ++ " " ++ op ++ " " ++ y.operand Prec.assignment)
      Prec.assignment) (.infixed op a b) := by
  have mark : op ∈ marks t := by simp [marks, ht, hop]
  obtain ⟨p, left, hl⟩ := hx.operand Prec.unary (by decide)
  obtain ⟨q, right, hr⟩ := hy.operand Prec.assignment (by decide)
  exact hl.infixed hr mark (if_pos hop) left right

theorem conditional (ht : t ≠ .rust) (hx : Renders t x a) (hy : Renders t y b) (hz : Renders t z c) :
    Renders t (.compound (x.operand Prec.coalesce ++ " ? " ++ y.operand Prec.assignment ++ " : " ++
      z.operand Prec.conditional) Prec.conditional) (.choice a b c) := by
  obtain ⟨p, cond, hc⟩ := hx.operand Prec.coalesce (by decide)
  obtain ⟨q, yes, hy⟩ := hy.operand Prec.assignment (by decide)
  obtain ⟨r, no, hn⟩ := hz.operand Prec.conditional (by decide)
  exact hc.choice ht hy hn cond yes no

theorem parenthesized (hx : Renders t x a) :
    Renders t (if x.prec ≥ Prec.primary then x else .primary ("(" ++ x.text ++ ")")) a := by
  split
  · exact hx
  · exact hx.parens

end Renders

end Polyglot.Operators
