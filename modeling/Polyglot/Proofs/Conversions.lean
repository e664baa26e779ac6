import Mathlib.Data.List.Find
import Polyglot.Target.Cast

/-!
# Conversions are made once and verbatim

The format of a conversion has one place for the expression, and marks are looked for in the format alone: what stands for a
mark is behind the pass that replaces it. So the text of the expression and the names of types are kept, whatever they contain.
What has been converted is settled, and is not converted again.
-/

namespace Polyglot

open List

namespace Text

variable {marks : List (String × String)} {mark text : String}

/-- A mark starts with a brace and has no other one in it, so that no two of them overlap. -/
def IsMark (mark : String) : Prop := ∃ name, mark.toList = '\x7b' :: name ∧ '\x7b' ∉ name

theorem isSome_afterChars?_append {name : List Char} (free : '\x7b' ∉ name) (head rest : List Char) :
    (afterChars? name (head ++ '\x7b' :: rest)).isSome = (afterChars? name head).isSome := by
  induction name generalizing head with
  | nil => rfl
  | cons c name ih =>
    obtain ⟨other, free⟩ := not_or.mp (mt mem_cons.mpr free)
    cases head with
    | nil => simp [afterChars?, Ne.symm other]
    | cons d head => simp [afterChars?, apply_ite, ih free]

/-- No mark that starts in a text ends behind the next brace. -/
theorem IsMark.isSome_afterChars? (isMark : IsMark mark) (c : Char) (head rest : List Char) :
    (afterChars? mark.toList (c :: (head ++ '\x7b' :: rest))).isSome = (afterChars? mark.toList (c :: head)).isSome := by
  obtain ⟨name, eq, free⟩ := isMark
  simp [eq, afterChars?, apply_ite, isSome_afterChars?_append free]

/-- **What stands in front of a brace is replaced on its own.** -/
theorem replaceFrom_append (isMark : ∀ m ∈ marks, IsMark m.1) (head rest : List Char) {skipped : Nat}
    (within : skipped ≤ head.length) : replaceFrom marks skipped (head ++ '\x7b' :: rest) =
      replaceFrom marks skipped head ++ replaceFrom marks 0 ('\x7b' :: rest) := by
  induction head generalizing skipped with
  | nil =>
    obtain rfl : skipped = 0 := Nat.le_zero.mp within
    rw [nil_append, replaceFrom, nil_append]
  | cons c head ih =>
    cases skipped with
    | succ skipped => exact ih (Nat.le_of_succ_le_succ within)
    | zero =>
      have found : marks.find? (fun m => (afterChars? m.1.toList (c :: (head ++ '\x7b' :: rest))).isSome) =
          marks.find? (fun m => (afterChars? m.1.toList (c :: head)).isSome) :=
        find?_congr fun m mem => (isMark m mem).isSome_afterChars? c head rest
      rw [cons_append, replaceFrom, replaceFrom, found]
      split
      · next mark text first =>
        obtain ⟨_, ends⟩ := Option.isSome_iff_exists.mp (find?_some first :)
        have short := congrArg length (eq_append_of_afterChars? ends)
        simp only [length_append, String.length_toList, length_cons] at short
        rw [ih (by omega), append_assoc]
      · rw [ih (Nat.zero_le _), cons_append]

/-- A mark that does not occur may be left out. -/
theorem replaceFrom_cons_absent {cs : List Char} (absent : occursChars mark.toList cs = false) (skipped : Nat) :
    replaceFrom ((mark, text) :: marks) skipped cs = replaceFrom marks skipped cs := by
  induction cs generalizing skipped with
  | nil => rw [replaceFrom, replaceFrom]
  | cons c cs ih =>
    obtain ⟨foreign, absent⟩ := Bool.or_eq_false_iff.mp absent
    cases skipped with
    | succ skipped => exact ih absent skipped
    | zero => simp only [replaceFrom, find?_cons, foreign, ih absent]

/-- What has been replaced is skipped. -/
theorem replaceFrom_skip (head rest : List Char) : replaceFrom marks head.length (head ++ rest) = replaceFrom marks 0 rest := by
  induction head with
  | nil => rfl
  | cons c head ih => exact ih

/-- **A mark that stands once gives way to its text**, which is kept as it is; the rest is replaced without it. -/
theorem replaceMarks_around (isMark : ∀ m ∈ (mark, text) :: marks, IsMark m.1) {before after : String}
    (once : occurs mark before = false ∧ occurs mark after = false) :
    replaceMarks ((mark, text) :: marks) (before ++ mark ++ after) =
      replaceMarks marks before ++ text ++ replaceMarks marks after := by
  obtain ⟨name, eq, free⟩ := isMark _ mem_cons_self
  have starts : (afterChars? mark.toList ('\x7b' :: (name ++ after.toList))).isSome = true := by
    rw [← cons_append, ← eq, afterChars?_append]
    rfl
  have whole : (before ++ mark ++ after).toList = before.toList ++ '\x7b' :: (name ++ after.toList) := by
    simp [eq]
  have length : mark.length - 1 = name.length := by
    rw [← String.length_toList, eq, length_cons, Nat.add_sub_cancel]
  apply String.toList_injective
  rw [replaceMarks, whole, replaceFrom_append isMark _ _ (Nat.zero_le _), replaceFrom_cons_absent once.1]
  simp [replaceMarks, replaceFrom, starts, length, replaceFrom_skip, replaceFrom_cons_absent once.2]

end Text

/-- The mark of the expression stands between two texts, and nowhere else in the format. -/
abbrev CastForm.Around (form : CastForm) (before after : String) : Prop :=
  form.format = before ++ "\x7bexpr\x7d" ++ after ∧
    Text.occurs "\x7bexpr\x7d" before = false ∧ Text.occurs "\x7bexpr\x7d" after = false

namespace Target

variable (t : Target) (idx : TypeIndex) {form : CastForm} {static converted : Option Ty} {r : Rendered}

/-- What is written for a text of a form around the expression. -/
def spelled (type : Option Ty) (text : String) : String := Text.replaceMarks (t.typeMarks idx type) text

/-- **Every form has one place for the expression.** -/
theorem castForm?_around : ∀ {t : Target} {kind : CastKind}, t.castForm? kind = some form →
    ∃ before after, form.Around before after
  | cpp, .box, rfl => ⟨"phase::box(", ")", by decide +kernel⟩
  | cpp, .numeric, rfl => ⟨"static_cast<\x7btype\x7d>(", ")", by decide +kernel⟩
  | cpp, .upcast, rfl => ⟨"std::static_pointer_cast<\x7btype\x7d>(", ")", by decide +kernel⟩
  | csharp, .numeric, rfl => ⟨"(\x7btype\x7d)", "", by decide +kernel⟩
  | java, .numeric, rfl => ⟨"(\x7btype\x7d) ", "", by decide +kernel⟩
  | rust, .box, rfl => ⟨"phase::boxed(", ")", by decide +kernel⟩
  | rust, .numeric, rfl => ⟨"", " as \x7btype\x7d", by decide +kernel⟩
  | rust, .upcast, rfl => ⟨"", " as \x7bowned\x7d", by decide +kernel⟩

theorem explicitForm_around : ∀ t : Target, ∃ before after, t.explicitForm.Around before after
  | cpp => ⟨"static_cast<\x7btype\x7d>(", ")", by decide +kernel⟩
  | csharp => ⟨"(\x7btype\x7d)", "", by decide +kernel⟩
  | java => ⟨"(\x7btype\x7d) ", "", by decide +kernel⟩
  | rust | typescript => ⟨"", " as \x7btype\x7d", by decide +kernel⟩

theorem applyForm_eq {before after : String} (around : form.Around before after) (type : Option Ty) (r : Rendered) :
    t.applyForm idx form type r =
      ⟨t.spelled idx type before ++ r.operand form.operand ++ t.spelled idx type after, .settled, form.result⟩ := by
  have isMark : ∀ m ∈ ("\x7bexpr\x7d", r.operand form.operand) :: t.typeMarks idx type, Text.IsMark m.1 := by
    simp [typeMarks, Text.IsMark]
  rw [applyForm, around.1, Text.replaceMarks_around isMark around.2]
  rfl

theorem convert_of_settled (settled : r.mode = .settled) : t.convert idx static converted r = r := if_pos settled

theorem convert_of_castForm? (kept : t.castForm? (CastKind.decide static converted) = none) :
    t.convert idx static converted r = r := by
  rw [convert, kept]
  exact ite_self r

theorem convert_of_none (kept : CastKind.decide static converted = .none) : t.convert idx static converted r = r := by
  refine t.convert_of_castForm? idx ?_
  rw [kept]
  cases t <;> rfl

theorem decide_of_same {s c : Ty} (same : s.same c) : CastKind.decide (some s) (some c) = .none := by
  rw [CastKind.decide, if_pos same]

/-- **Conversions are made once and verbatim.** A second conversion between the same types changes nothing; neither does the
first one where the types are equal or the expression is settled. Wherever a form is applied, the text of the expression
stands in its one place, in parentheses exactly if it binds looser than the place allows, between texts that do not depend
on it; the result is settled and has the level of the form. -/
theorem conversions_once_verbatim (t : Target) (idx : TypeIndex) (static converted : Option Ty) :
    (∀ r, t.convert idx static converted (t.convert idx static converted r) = t.convert idx static converted r) ∧
    (∀ r, r.mode = .settled ∨ static = converted ∨ (∃ s ∈ static, ∃ c ∈ converted, s.same c) →
      t.convert idx static converted r = r) ∧
    ∀ form, (t.castForm? (CastKind.decide static converted) = some form ∨ form = t.explicitForm) →
      ∃ before after, form.Around before after ∧ ∀ r : Rendered,
        let cast : Rendered := ⟨t.spelled idx converted before ++
          (if r.prec < form.operand then "(" ++ r.text ++ ")" else r.text) ++ t.spelled idx converted after, .settled, form.result⟩
        t.applyForm idx form converted r = cast ∧
        (t.castForm? (CastKind.decide static converted) = some form → r.mode ≠ .settled →
          t.convert idx static converted r = cast) := by
  refine ⟨fun r => ?_, ?_, fun form known => ?_⟩
  · by_cases settled : r.mode = .settled
    · rw [t.convert_of_settled idx settled, t.convert_of_settled idx settled]
    · cases made : t.castForm? (CastKind.decide static converted) with
      | none => rw [t.convert_of_castForm? idx made, t.convert_of_castForm? idx made]
      | some form =>
        have cast : t.convert idx static converted r = t.applyForm idx form converted r := by
          rw [convert, if_neg settled, made]
        rw [cast, t.convert_of_settled idx rfl]
  · rintro r (settled | rfl | ⟨s, ⟨⟩, c, ⟨⟩, same⟩)
    · exact t.convert_of_settled idx settled
    · refine t.convert_of_none idx ?_
      cases static with
      | none => rfl
      | some s => exact decide_of_same (beq_self_eq_true _)
    · exact t.convert_of_none idx (decide_of_same same)
  · obtain ⟨before, after, around⟩ : ∃ before after, form.Around before after := by
      rcases known with made | rfl
      · exact castForm?_around made
      · exact t.explicitForm_around
    refine ⟨before, after, around, fun r => ⟨t.applyForm_eq idx around converted r, fun made owed => ?_⟩⟩
    rw [convert, if_neg owed, made]
    exact t.applyForm_eq idx around converted r

/-- Text that looks like a mark is kept. -/
example : rust.convert {} (some .int) (some (.primitive .int64)) (.compound "n + \x7bexpr\x7d" Prec.additive) =
    ⟨"(n + \x7bexpr\x7d) as i64", .settled, Prec.cast⟩ := by decide +kernel

end Target

end Polyglot
