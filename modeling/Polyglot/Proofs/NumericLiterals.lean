import Mathlib.Algebra.Order.Field.Rat
import Mathlib.Data.List.DropRight
import Mathlib.Tactic.NormNum
import Polyglot.Proofs.ScalarNumbers
import Polyglot.Resolve.Expr

/-!
# Which numbers survive as literals

A number goes into a target as the document spells it, but for a floating-point type: there the letters that look like the suffix
of a type are cut off, and a point is added where there is neither a point nor an exponent. So a number survives exactly if the
target knows the spelling and takes it for the same number.

* C++ has no separators, and each other target has its own places for them. Only Rust and TypeScript have `0o`.
* Zeros in front make an integer octal in a document, in C++ and in Java, but not in C# and Rust; TypeScript refuses them.
* No target has floating-point numbers in base sixteen, eight or two, and `0x1F` loses its last digit.
-/

namespace Polyglot

open List Text Yaml

/-! ## Values -/

namespace Sign

variable {sign : Option Sign}

theorem cast_apply (m : Nat) : ((apply sign (m : Int) : Int) : ℚ) = apply sign (m : ℚ) := by
  unfold apply
  split <;> simp

theorem apply_inj {a b : ℚ} : apply sign a = apply sign b ↔ a = b := by
  unfold apply
  split <;> simp

end Sign

namespace Numeral

variable {whole : List Char} {m : Nat} (sign : Option Sign)

theorem value_whole (digits : digits? 10 (ungrouped whole) = some m) :
    (decimal? ⟨sign, .decimal whole none none⟩).map Decimal.value = some (Sign.apply sign (m : ℚ)) := by
  simp [decimal?, digits, Exponent.power?, Decimal.value, Sign.apply]

/-- A zero behind the point adds nothing. -/
theorem value_point (digits : digits? 10 (ungrouped whole) = some m) :
    (decimal? ⟨sign, .decimal whole (some ['0']) none⟩).map Decimal.value = some (Sign.apply sign (m : ℚ)) := by
  have longer : digits? 10 (ungrouped (whole ++ ['0'])) = some (m * 10) := by
    obtain ⟨some, read⟩ := digits?_eq_some.mp digits
    rw [digits?_eq_some, ungrouped_append]
    refine ⟨by simp [some], ?_⟩
    rw [foldDigits?_append, read]
    rfl
  have one : (ungrouped ['0']).length = 1 := rfl
  simp [decimal?, longer, Exponent.power?, Decimal.value, Sign.apply, one]

end Numeral

namespace Target

variable {t : Target}

theorem denotes_iff {text : String} {x : ℚ} {asFloating : Bool} : t.denotes text x asFloating ↔
    ∃ n, Numeral.ofChars? text.toList = some n ∧ t.accepts n ∧ t.value? n = some x ∧ (asFloating → t.isFloating n) := by
  unfold denotes number?
  cases Numeral.ofChars? text.toList with
  | none => simp
  | some n =>
    cases value : t.value? n with
    | none => simp [value]
    | some y => by_cases accepted : t.accepts n <;> cases asFloating <;> simp [value, accepted]

end Target

/-! ## The text of a floating-point number -/

/-- The letters that are cut off the end of a number. -/
def typeLetters : List Char := ['f', 'F', 'd', 'D', 'm', 'M']

def pointLetters : List Char := ['.', 'e', 'E']

theorem occursChars_of_notMem {c : Char} {part cs : List Char} (absent : c ∉ cs) : occursChars (c :: part) cs = false := by
  induction cs with
  | nil => rfl
  | cons d cs ih =>
    obtain ⟨here, rest⟩ : c ≠ d ∧ c ∉ cs := by simpa using absent
    rw [occursChars, ih rest, afterChars?, if_neg here]
    rfl

variable {s : String}

/-- **The text of a floating-point number**: letters of types are cut off its end, and a number without a point and without an
exponent gets a point. -/
theorem toList_floatText (noWord : 'I' ∉ s.toList ∧ 'N' ∉ s.toList) :
    ∃ kept letters, s.toList = kept ++ letters ∧ (∀ c ∈ letters, c ∈ typeLetters) ∧ (∀ c ∈ kept.getLast?, c ∉ typeLetters) ∧
      (floatText s).toList = if kept.any (· ∈ pointLetters) then kept else kept ++ ['.', '0'] := by
  have isLetter (c : Char) : "fFdDmM".toList.contains c ↔ c ∈ typeLetters := contains_iff_mem
  have whole := rdropWhile_append_rtakeWhile (p := ("fFdDmM".toList.contains ·)) (l := s.toList)
  have last_ne := rdropWhile_last_not ("fFdDmM".toList.contains ·) s.toList
  have text : floatText s =
      let kept := String.ofList (s.toList.rdropWhile ("fFdDmM".toList.contains ·))
      if kept.toList.any (fun c => c = '.' || c = 'e' || c = 'E') || occurs "Inf" kept || occurs "NaN" kept then kept
      else kept ++ ".0" := rfl
  generalize s.toList.rdropWhile ("fFdDmM".toList.contains ·) = kept at whole last_ne text
  refine ⟨kept, s.toList.rtakeWhile ("fFdDmM".toList.contains ·), whole.symm, ?_, ?_, ?_⟩
  · intro c mem
    exact (isLetter c).mp (mem_rtakeWhile_imp mem)
  · intro c last
    have letter := last_ne (ne_nil_of_mem (mem_of_getLast? last))
    rwa [getLast_of_mem_getLast? last, isLetter] at letter
  · have absent {c : Char} (absent : c ∉ s.toList) : c ∉ (String.ofList kept).toList := by
      rw [String.toList_ofList]
      exact fun mem => absent (whole ▸ mem_append_left _ mem)
    have noInf : occurs "Inf" (String.ofList kept) = false := occursChars_of_notMem (absent noWord.1)
    have noNaN : occurs "NaN" (String.ofList kept) = false := occursChars_of_notMem (absent noWord.2)
    have points : kept.any (fun c => c = '.' || c = 'e' || c = 'E') = kept.any (· ∈ pointLetters) := by
      simp [pointLetters, Bool.or_assoc]
    rw [text]
    simp only [noInf, noNaN, String.toList_ofList, Bool.or_false, points]
    split
    · exact String.toList_ofList
    · rw [String.toList_append, String.toList_ofList]
      rfl

/-- The text of a decimal number: nothing is cut off. -/
theorem toList_floatText_decimal (marks : ∀ c ∈ s.toList, isGrouped c ∨ c ∈ ['.', 'e', 'E', '+', '-']) :
    (floatText s).toList = if s.toList.any (· ∈ pointLetters) then s.toList else s.toList ++ ['.', '0'] := by
  have other {c : Char} (digit : isGrouped c = false) (mark : c ∉ ['.', 'e', 'E', '+', '-']) : c ∉ s.toList := by
    intro mem
    rcases marks c mem with grouped | isMark
    · simp [digit] at grouped
    · exact mark isMark
  obtain ⟨kept, letters, whole, areLetters, -, text⟩ :=
    toList_floatText ⟨other (c := 'I') rfl (by decide), other (c := 'N') rfl (by decide)⟩
  have letter : ∀ c ∈ typeLetters, isGrouped c = false ∧ c ∉ ['.', 'e', 'E', '+', '-'] := forall_mem_of_all rfl
  have none : letters = [] := by
    refine eq_nil_iff_forall_not_mem.mpr fun c mem => ?_
    obtain ⟨digit, mark⟩ := letter c (areLetters c mem)
    exact absurd (whole ▸ mem_append_right _ mem) (other digit mark)
  rw [none, append_nil] at whole
  rw [text, whole]

theorem toList_floatText_whole {sign : Option Sign} {whole : List Char}
    (read : Numeral.ofChars? s.toList = some ⟨sign, .decimal whole none none⟩) :
    (floatText s).toList = s.toList ++ ['.', '0'] := by
  obtain ⟨chars, formed⟩ := Numeral.ofChars?_eq_some_iff.mp read
  rw [toList_floatText_decimal fun c mem => Numeral.mem_decimal formed (chars ▸ mem), if_neg]
  intro points
  obtain ⟨c, mem, point⟩ := any_eq_true.mp points
  have letter : ∀ c ∈ pointLetters, isGrouped c = false ∧ c ≠ '+' ∧ c ≠ '-' := forall_mem_of_all rfl
  have other := letter c (of_decide_eq_true point)
  rw [← chars, Numeral.chars, Spelling.chars, Option.map_none, Option.getD_none, nil_append, Option.map_none,
    Option.getD_none, append_nil] at mem
  rcases mem_append.mp mem with sign | digit
  · rcases Sign.mem_chars sign with same | same
    · exact other.2.1 same
    · exact other.2.2 same
  · cases other.1.symm.trans (formed.1 c digit)

/-! ## Which numbers survive -/

namespace Target

/-- **Does a numeral keep its number** in the literal that is made of it? It has to be a number in the target as it stands, and

* behind the letter of a base, no floating-point number is asked for; or the target has no others, and the numeral does not get
  a point, because a digit of it looks like an exponent, and keeps its last digit, because that does not look like a type;
* behind a zero, an integer is octal in the target as well, if it stays an integer; or it is less than eight. -/
def keeps (t : Target) (tag : Tag) (asFloating : Bool) (n : Numeral) : Bool :=
  t.accepts n &&
    match n.spelling with
    | .announced _ digits =>
      !asFloating || (t.numerals.onlyFloating && digits.any (· ∈ pointLetters) && !digits.getLast?.any (· ∈ typeLetters))
    | .decimal whole _ _ =>
      !(tag = .int && hasLeadingZero whole) || (t.numerals.leadingZero = .octal && !asFloating) ||
        (digits? 8 (ungrouped whole)).any (· < 8)

/-- The suffix by which a literal shows its type. -/
def numberSuffix : Target → Ty → String
  | cpp, .primitive .int64 => "LL"
  | cpp, .primitive .uint64 => "ULL"
  | cpp, .primitive .uint32 | cpp, .primitive .uint16 | cpp, .primitive .uint8 => "U"
  | csharp, .primitive .int64 | csharp, .primitive .uint64 | java, .primitive .int64 | java, .primitive .uint64 => "L"
  | cpp, .primitive .float32 | csharp, .primitive .float32 | java, .primitive .float32 => "f"
  | rust, .primitive .float32 => "_f32"
  | _, _ => ""

variable {type : Ty} {whole : List Char}

theorem literal_int (t : Target) (s : String) (integral : type.primitive?.any (·.isFloating) = false) :
    t.literal ⟨.int, s⟩ (some type) = s ++ t.numberSuffix type := by
  cases type with
  | primitive p =>
    cases p with
    | float32 | float64 => cases integral
    | _ => cases t <;> first | rfl | exact (String.append_empty).symm
  | _ => cases t <;> exact (String.append_empty).symm

theorem literal_float (t : Target) (s : String) (floating : type.primitive?.any (·.isFloating)) :
    t.literal ⟨.float, s⟩ (some type) = floatText s ++ t.numberSuffix type := by
  cases type with
  | primitive p =>
    cases p with
    | float32 | float64 => cases t <;> rfl
    | _ => cases floating
  | _ => cases floating

variable {t : Target} {s : String} {sign : Option Sign}

/-- Whether a target accepts a numeral does not change with a point behind it. -/
theorem accepts_point (some_digit : whole ≠ []) :
    t.accepts ⟨sign, .decimal whole (some ['0']) none⟩ = t.accepts ⟨sign, .decimal whole none none⟩ := by
  have zero : t.numerals.group.admits ['0'] = true := by cases t <;> rfl
  simp [accepts, some_digit, zero]

/-- The literal of a numeral that gets a point. -/
theorem denotes_point {m : Nat} {x : ℚ} {text : String}
    (read : Numeral.ofChars? s.toList = some ⟨sign, .decimal whole none none⟩) (digits : digits? 10 (ungrouped whole) = some m)
    (pointed : text.toList = s.toList ++ ['.', '0']) :
    t.denotes text x true ↔ t.accepts ⟨sign, .decimal whole none none⟩ ∧ Sign.apply sign (m : ℚ) = x := by
  obtain ⟨chars, grouped, -⟩ := Numeral.ofChars?_eq_some_iff.mp read
  have read' : Numeral.ofChars? text.toList = some ⟨sign, .decimal whole (some ['0']) none⟩ := by
    refine Numeral.ofChars?_eq_some_iff.mpr ⟨?_, grouped, ?_, nofun⟩
    · rw [pointed, ← chars]
      simp [Numeral.chars, Spelling.chars]
    · rintro f ⟨⟩
      exact forall_mem_singleton.mpr (by decide)
  have some_digit : whole ≠ [] := by
    rintro rfl
    cases digits
  have value : t.value? ⟨sign, .decimal whole (some ['0']) none⟩ = some (Sign.apply sign (m : ℚ)) :=
    Numeral.value_point sign digits
  rw [denotes_iff]
  constructor
  · rintro ⟨n, same, accepted, number, -⟩
    cases read'.symm.trans same
    exact ⟨accepts_point some_digit ▸ accepted, Option.some.inj (value.symm.trans number)⟩
  · rintro ⟨accepted, rfl⟩
    exact ⟨_, read', (accepts_point some_digit).symm ▸ accepted, value, fun _ => by simp [isFloating]⟩

end Target

/-! ### Integers -/

section Integers

variable {t : Target} {s : String} {z : Int}

/-- Octal digits read as decimal ones. -/
theorem digits?_ten_of_eight {cs : List Char} {m : Nat} (digits : digits? 8 cs = some m) :
    ∃ m', digits? 10 cs = some m' ∧ (m' = m ↔ m < 8) := by
  obtain ⟨some, read⟩ := digits?_eq_some.mp digits
  obtain ⟨m', read', -, same⟩ := foldDigits?_ten_of_eight (Nat.le_refl 0) (by decide) read
  exact ⟨m', digits?_eq_some.mpr ⟨some, read'⟩, eq_comm.trans same⟩

/-- **Integers of an integer type.** -/
theorem denotes_integer_iff (spelled : integer? (ungrouped s.toList) = some z) :
    t.denotes s z false ↔ (Numeral.ofChars? s.toList).any (t.keeps .int false) := by
  rw [Target.denotes_iff]
  cases read : Numeral.ofChars? s.toList with
  | none => simp
  | some n =>
    obtain ⟨sign, spelling⟩ := n
    obtain ⟨chars, formed⟩ := Numeral.ofChars?_eq_some_iff.mp read
    rw [← chars] at spelled
    cases spelling with
    | announced letter digits =>
      obtain ⟨m, number, rfl⟩ := integer?_announced formed spelled
      simp [Target.value?, number, Target.keeps, Sign.cast_apply]
    | decimal whole fraction exponent =>
      obtain ⟨rfl, rfl, m, number, rfl⟩ := integer?_decimal formed spelled
      by_cases zero : hasLeadingZero whole
      · rw [if_pos zero] at number
        by_cases octal : t.numerals.leadingZero = .octal
        · simp [Target.value?, Target.readsOctal, Target.keeps, Sign.cast_apply, zero, octal, number]
        · obtain ⟨m', decimal, same⟩ := digits?_ten_of_eight number
          have value := Numeral.value_whole sign decimal
          simp [Target.value?, Target.readsOctal, Target.keeps, Sign.cast_apply, zero, octal, number, value, Sign.apply_inj,
            same]
      · rw [if_neg zero] at number
        have value := Numeral.value_whole sign number
        simp [Target.value?, Target.readsOctal, Target.keeps, Sign.cast_apply, zero, value]

variable {sign : Option Sign} {digits : List Char} {letter c : Char}

/-- Letters of types that are digits as well make a number larger. -/
theorem eq_nil_of_digits? {base m : Nat} {cut : List Char} (some_base : 0 < base) (letters : ∀ c ∈ cut, c ∈ typeLetters)
    (short : digits? base (ungrouped digits) = some m) (long : digits? base (ungrouped (digits ++ cut)) = some m) :
    cut = [] := by
  cases cut with
  | nil => rfl
  | cons c cut =>
    have letter := letters c mem_cons_self
    have other : c ≠ '_' := by
      rintro rfl
      exact absurd letter (by decide)
    rw [ungrouped_append, ungrouped_cons other, digits?_eq_some, foldDigits?_append, (digits?_eq_some.mp short).2] at long
    obtain ⟨d, value, -, rest⟩ := foldDigits?_cons_eq_some.mp long.2
    have bound := le_of_foldDigits? some_base rest
    have grows : m ≤ m * base := Nat.le_mul_of_pos_right m some_base
    have zero : d = 0 := by omega
    subst zero
    simp only [typeLetters, mem_cons, not_mem_nil, or_false] at letter
    rcases letter with rfl | rfl | rfl | rfl | rfl | rfl <;> cases value

/-- What looks like a point or an exponent in an announced numeral is a digit. -/
theorem mem_digits_of_announced (known : letter ∈ baseLetters)
    (mem : c ∈ Numeral.chars ⟨sign, .announced letter digits⟩) (point : c ∈ pointLetters) : c ∈ digits := by
  have letter : ∀ c ∈ pointLetters, c ≠ '0' ∧ c ≠ '+' ∧ c ≠ '-' ∧ c ∉ baseLetters := forall_mem_of_all rfl
  have other := letter c point
  rcases mem_append.mp mem with sign | mem
  · rcases Sign.mem_chars sign with same | same
    · exact absurd same other.2.1
    · exact absurd same other.2.2.1
  rcases mem_cons.mp mem with same | mem
  · exact absurd same other.1
  rcases mem_cons.mp mem with rfl | mem
  · exact absurd known other.2.2.2
  · exact mem

theorem announced_of_mem {spelling : Spelling} (formed : spelling.WellFormed) (mem : c ∈ Numeral.chars ⟨sign, spelling⟩)
    (isLetter : c ∈ baseLetters) : ∃ letter digits, spelling = .announced letter digits := by
  cases spelling with
  | announced letter digits => exact ⟨letter, digits, rfl⟩
  | decimal whole fraction exponent =>
    rcases mem_append.mp mem with isSign | inside
    · rcases Sign.mem_chars isSign with rfl | rfl <;> exact absurd isLetter (by decide)
    · exact absurd isLetter (Spelling.not_mem_baseLetters formed inside)

theorem getLast?_announced (last : digits.getLast? = some c) :
    (Numeral.chars ⟨sign, .announced letter digits⟩).getLast? = some c := by
  have parts : Numeral.chars ⟨sign, .announced letter digits⟩ = (Sign.chars sign ++ ['0', letter]) ++ digits := by
    simp [Numeral.chars, Spelling.chars]
  rw [parts, getLast?_append, last]
  rfl

section

variable (spelled : integer? (ungrouped s.toList) = some z)
include spelled

theorem integer_noWord : 'I' ∉ s.toList ∧ 'N' ∉ s.toList := by
  constructor
  all_goals
    intro mem
    exact absurd (mem_integer spelled mem) (by decide)

/-- The text of an integer behind the letter of a base, if it is a numeral, is that integer without its last digits. -/
theorem announced_of_floatText {n : Numeral} (lettered : ∃ c ∈ s.toList, c ∈ baseLetters)
    (read : Numeral.ofChars? (floatText s).toList = some n) : ∃ sign letter digits cut, n = ⟨sign, .announced letter digits⟩ ∧
      Numeral.ofChars? s.toList = some ⟨sign, .announced letter (digits ++ cut)⟩ ∧ (∀ c ∈ cut, c ∈ typeLetters) ∧
      digits.any (· ∈ pointLetters) ∧ ∀ c ∈ digits.getLast?, c ∉ typeLetters := by
  obtain ⟨c, mem, isLetter⟩ := lettered
  obtain ⟨kept, cut, whole, areLetters, last, text⟩ := toList_floatText (integer_noWord spelled)
  obtain ⟨chars, formed⟩ := Numeral.ofChars?_eq_some_iff.mp read
  obtain ⟨sign, spelling⟩ := n
  have noLetter : ∀ c ∈ typeLetters, c ≠ '+' ∧ c ≠ '-' ∧ c ∉ baseLetters := forall_mem_of_all rfl
  have inside : c ∈ Numeral.chars ⟨sign, spelling⟩ := by
    have mem : c ∈ kept := by
      rw [whole] at mem
      exact (mem_append.mp mem).resolve_right fun inCut => (noLetter c (areLetters c inCut)).2.2 isLetter
    rw [chars, text]
    split
    · exact mem
    · exact mem_append_left _ mem
  obtain ⟨letter, digits, rfl⟩ := announced_of_mem formed inside isLetter
  by_cases points : kept.any (· ∈ pointLetters)
  · rw [if_pos points, ← chars] at text
    have based : ∀ c ∈ cut, isBased c := by
      intro c mem
      have other := noLetter c (areLetters c mem)
      rcases mem_integer spelled (whole ▸ mem_append_right _ mem) with based | (same | same) | letter
      · exact based
      · exact absurd same other.1
      · exact absurd same other.2.1
      · exact absurd letter other.2.2
    refine ⟨sign, letter, digits, cut, rfl, ?_, areLetters, ?_, ?_⟩
    · refine Numeral.ofChars?_eq_some_iff.mpr ⟨?_, formed.1, ?_⟩
      · rw [whole, ← text]
        simp [Numeral.chars, Spelling.chars]
      · intro c mem
        exact (mem_append.mp mem).elim (formed.2 c) (based c)
    · obtain ⟨c, mem, point⟩ := any_eq_true.mp points
      refine any_eq_true.mpr ⟨c, ?_, point⟩
      exact mem_digits_of_announced formed.1 (text ▸ mem) (of_decide_eq_true point)
    · intro c isLast
      refine last c ?_
      rw [← text]
      exact getLast?_announced isLast
  · rw [if_neg points] at text
    have point : '.' ∈ digits := mem_digits_of_announced formed.1 (by rw [chars, text]; simp) (by decide)
    cases formed.2 '.' point

omit spelled in
/-- The text of such an integer is left alone if a digit of it looks like an exponent and the last one does not look like a
type. -/
theorem toList_floatText_announced (noWord : 'I' ∉ s.toList ∧ 'N' ∉ s.toList)
    (chars : Numeral.chars ⟨sign, .announced letter digits⟩ = s.toList) (points : digits.any (· ∈ pointLetters))
    (last : digits.getLast?.any (· ∈ typeLetters) = false) : (floatText s).toList = s.toList := by
  obtain ⟨kept, cut, whole, areLetters, -, text⟩ := toList_floatText noWord
  obtain ⟨c, mem, point⟩ := any_eq_true.mp points
  have none : cut = [] := by
    cases isLast : cut.getLast? with
    | none => exact getLast?_eq_none_iff.mp isLast
    | some d =>
      -- The last letter would be the last digit.
      obtain ⟨d', isLast'⟩ := Option.ne_none_iff_exists'.mp (mt getLast?_eq_none_iff.mp (ne_nil_of_mem mem))
      have same : d' = d := by
        have ends : (Numeral.chars ⟨sign, .announced letter digits⟩).getLast? = some d' := getLast?_announced isLast'
        rw [chars, whole, getLast?_append, isLast] at ends
        exact (Option.some.inj ends).symm
      subst same
      rw [isLast', Option.any_some, decide_eq_false_iff_not] at last
      exact absurd (areLetters d' (mem_of_getLast? isLast)) last
  rw [none, append_nil] at whole
  rw [text, if_pos, whole]
  refine any_eq_true.mpr ⟨c, ?_, point⟩
  rw [← whole, ← chars, Numeral.chars, Spelling.chars]
  simp [mem]

/-- Integers of a floating-point type, behind the letter of a base. -/
theorem denotes_floated_announced_iff (lettered : ∃ c ∈ s.toList, c ∈ baseLetters) :
    t.denotes (floatText s) z true ↔ (Numeral.ofChars? s.toList).any (t.keeps .int true) := by
  constructor
  · rw [Target.denotes_iff]
    rintro ⟨n, read, accepted, value, floating⟩
    obtain ⟨sign, letter, digits, cut, rfl, whole, letters, points, last⟩ := announced_of_floatText spelled lettered read
    obtain ⟨chars, formed⟩ := Numeral.ofChars?_eq_some_iff.mp whole
    rw [← chars] at spelled
    obtain ⟨m, number, rfl⟩ := integer?_announced formed spelled
    obtain ⟨m', number', same⟩ := Option.map_eq_some_iff.mp value
    rw [Sign.cast_apply, Sign.apply_inj, Nat.cast_inj] at same
    subst same
    cases eq_nil_of_digits? (baseOf_pos letter) letters number' number
    have only : t.numerals.onlyFloating := by simpa [Target.isFloating] using floating rfl
    have kept : digits.getLast?.any (· ∈ typeLetters) = false := by
      cases isLast : digits.getLast? with
      | none => rfl
      | some c => simpa using last c isLast
    rw [whole, append_nil]
    simp [Target.keeps, accepted, only, points, kept]
  · intro keeps
    obtain ⟨⟨sign, spelling⟩, read⟩ := Option.isSome_iff_exists.mp (Option.isSome_of_any keeps)
    rw [read, Option.any_some] at keeps
    obtain ⟨chars, formed⟩ := Numeral.ofChars?_eq_some_iff.mp read
    obtain ⟨c, mem, isLetter⟩ := lettered
    obtain ⟨letter, digits, rfl⟩ := announced_of_mem formed (chars ▸ mem) isLetter
    simp only [Target.keeps, Bool.not_true, Bool.false_or, Bool.and_eq_true, Bool.not_eq_true'] at keeps
    obtain ⟨accepted, ⟨only, points⟩, last⟩ := keeps
    have text := toList_floatText_announced (integer_noWord spelled) chars points last
    rw [← chars] at spelled
    obtain ⟨m, number, rfl⟩ := integer?_announced formed spelled
    rw [Target.denotes_iff, text]
    refine ⟨_, read, accepted, ?_, fun _ => by simp [Target.isFloating, only]⟩
    rw [Sign.cast_apply]
    exact congrArg (Option.map _) number

/-- Integers of a floating-point type, in plain digits. -/
theorem denotes_floated_whole_iff {whole : List Char} (read : Numeral.ofChars? s.toList = some ⟨sign, .decimal whole none none⟩) :
    t.denotes (floatText s) z true ↔ (Numeral.ofChars? s.toList).any (t.keeps .int true) := by
  obtain ⟨chars, formed⟩ := Numeral.ofChars?_eq_some_iff.mp read
  rw [← chars] at spelled
  obtain ⟨-, -, m, number, rfl⟩ := integer?_decimal formed spelled
  rw [read, Option.any_some]
  -- What is octal in the document is a decimal with the point behind it.
  by_cases zero : hasLeadingZero whole
  · rw [if_pos zero] at number
    obtain ⟨m', decimal, same⟩ := digits?_ten_of_eight number
    rw [Target.denotes_point read decimal (toList_floatText_whole read), Sign.cast_apply, Sign.apply_inj, Nat.cast_inj, same]
    simp [Target.keeps, zero, number]
  · rw [if_neg zero] at number
    rw [Target.denotes_point read number (toList_floatText_whole read), Sign.cast_apply]
    simp [Target.keeps, zero]

/-- **Integers of a floating-point type.** -/
theorem denotes_floated_iff (start : s.toList.head? ≠ some '_') :
    t.denotes (floatText s) z true ↔ (Numeral.ofChars? s.toList).any (t.keeps .int true) := by
  by_cases lettered : ∃ c ∈ s.toList, c ∈ baseLetters
  · exact denotes_floated_announced_iff spelled lettered
  · obtain ⟨sign, whole, read⟩ := numeral_of_integer? spelled start fun c mem letter => lettered ⟨c, mem, letter⟩
    exact denotes_floated_whole_iff spelled read

end

end Integers

/-! ### Decimals -/

section Decimals

variable {t : Target} {s : String} {d : Decimal}

section

variable (spelled : Decimal.ofChars? (ungrouped s.toList) = some d)
include spelled

theorem mem_of_decimal {c : Char} (mem : c ∈ s.toList) : isGrouped c ∨ c ∈ ['.', 'e', 'E', '+', '-'] := by
  by_cases separator : c = '_'
  · exact .inl (by simp [isGrouped, separator])
  · obtain ⟨sign, whole, fraction, exponent, chars, formed⟩ := Decimal.numeral_of_ofChars? spelled
    exact Numeral.mem_decimal formed (chars ▸ mem_ungrouped separator mem)

theorem numeral_of_decimal (start : s.toList.head? ≠ some '_') (plain : ∀ c ∈ s.toList, c ∉ pointLetters) :
    ∃ sign whole, Numeral.ofChars? s.toList = some ⟨sign, .decimal whole none none⟩ := by
  obtain ⟨sign, whole, fraction, exponent, chars, formed⟩ := Decimal.numeral_of_ofChars? spelled
  have absent {c : Char} (point : c ∈ pointLetters) : c ∉ Numeral.chars ⟨sign, .decimal whole fraction exponent⟩ := fun mem =>
    plain c (mem_of_mem_ungrouped (chars ▸ mem)) point
  have noFraction : fraction = none := by
    cases fraction with
    | none => rfl
    | some f => exact absurd (by simp [Numeral.chars, Spelling.chars]) (absent (c := '.') (by decide))
  have noExponent : exponent = none := by
    cases exponent with
    | none => rfl
    | some e =>
      have letter : e.letter ∈ pointLetters := by
        rcases (formed.2.2 e rfl).letter with same | same <;> rw [same] <;> decide
      exact absurd (by simp [Numeral.chars, Spelling.chars, Exponent.chars]) (absent letter)
  subst noFraction noExponent
  refine Numeral.ofChars?_of_digits start fun c mem => ?_
  have cut : Sign.cut (ungrouped s.toList) = (sign, whole) := by
    rw [← chars, Numeral.chars, Sign.cut_chars sign (Spelling.unsigned formed)]
    simp [Spelling.chars]
  rw [cut] at mem
  have other : c ≠ '_' := by
    rintro rfl
    refine underscore_notMem_ungrouped s.toList ?_
    rw [← Sign.chars_cut (ungrouped s.toList), cut]
    exact mem_append_right _ mem
  simpa [isGrouped, other] using formed.1 c mem

/-- **Decimals** stay what they are, if the target knows the spelling. -/
theorem denotes_decimal_iff (start : s.toList.head? ≠ some '_') :
    t.denotes (floatText s) d.value true ↔ (Numeral.ofChars? s.toList).any (t.keeps .float true) := by
  by_cases points : s.toList.any (· ∈ pointLetters)
  · have text := toList_floatText_decimal fun c mem => mem_of_decimal spelled mem
    rw [if_pos points] at text
    rw [Target.denotes_iff, text]
    cases read : Numeral.ofChars? s.toList with
    | none => simp
    | some n =>
      obtain ⟨sign, spelling⟩ := n
      obtain ⟨chars, formed⟩ := Numeral.ofChars?_eq_some_iff.mp read
      cases spelling with
      | announced letter digits =>
        have mem : letter ∈ s.toList := by
          rw [← chars]
          simp [Numeral.chars, Spelling.chars]
        have other : ∀ c ∈ baseLetters, ¬ (isGrouped c ∨ c ∈ ['.', 'e', 'E', '+', '-']) := forall_mem_of_all rfl
        exact absurd (mem_of_decimal spelled mem) (other letter formed.1)
      | decimal whole fraction exponent =>
        rw [← chars, Decimal.ofChars?_ungrouped formed] at spelled
        have pointed : fraction.isSome || exponent.isSome := by
          by_contra none
          simp only [Bool.or_eq_true, not_or, Option.not_isSome_iff_eq_none] at none
          obtain ⟨rfl, rfl⟩ := none
          have longer := toList_floatText_whole read
          rw [text] at longer
          simp at longer
        have notOctal : t.readsOctal (.decimal whole fraction exponent) = false := by
          rcases fraction with _ | _ <;> rcases exponent with _ | _ <;> first | rfl | cases pointed
        simp [Target.value?, notOctal, spelled, Target.keeps, Target.isFloating, pointed]
  · obtain ⟨sign, whole, read⟩ := numeral_of_decimal spelled start fun c mem point =>
      points (any_eq_true.mpr ⟨c, mem, decide_eq_true point⟩)
    obtain ⟨chars, formed⟩ := Numeral.ofChars?_eq_some_iff.mp read
    rw [← chars, Decimal.ofChars?_ungrouped formed] at spelled
    obtain ⟨m, digits, -⟩ := Option.bind_eq_some_iff.mp spelled
    rw [Option.getD_none, append_nil] at digits
    have value := Numeral.value_whole sign digits
    rw [spelled, Option.map_some, Option.some_inj] at value
    rw [Target.denotes_point read digits (toList_floatText_whole read), read, value]
    simp [Target.keeps]

end

end Decimals

/-! ### All numbers -/

namespace Target

/-- **Which numbers survive as literals.** Every scalar that is a finite number becomes a literal, whatever type is asked for: a
text for the number, and the suffix of its type. In a target the text denotes the number of the scalar, and is a floating-point
literal if its type is, exactly if the scalar is a numeral that keeps its number there. -/
theorem number_literal_iff (t : Target) (s : String) (hint : Option Ty) (mark : Yaml.Mark)
    (number : Tag.ofPlain s = .int ∨ Tag.ofPlain s = .float ∧ wordTag? s = none) :
    ∃ x c type stem, Yaml.number? s = some x ∧ Resolver.literalOf (.ofScalar mark none s true) hint = .ok (c, type) ∧
      t.literal c (some type) = stem ++ t.numberSuffix type ∧
      (t.denotes stem x (type.primitive?.any (·.isFloating)) ↔
        (Numeral.ofChars? s.toList).any (t.keeps (Tag.ofPlain s) (type.primitive?.any (·.isFloating)))) := by
  have node : Node.ofScalar mark none s true = .scalar mark (Tag.ofPlain s) s := by
    have other : s ≠ "<<" := by
      rintro rfl
      revert number
      decide
    simp [Node.ofScalar, other]
  rw [node]
  rcases number with tag | ⟨tag, word⟩
  · obtain ⟨⟨z, spelled⟩, c, head, start⟩ := integer?_of_tag tag
    have start : s.toList.head? ≠ some '_' := by
      rw [head]
      rintro ⟨⟩
      revert start
      decide
    have number : Yaml.number? s = some (z : ℚ) := by simp [Yaml.number?, tag, spelled]
    obtain ⟨type, made⟩ : ∃ type, Resolver.literalOf (.scalar mark .int s) hint =
        .ok (⟨if type.primitive?.any (·.isFloating) then .float else .int, s⟩, type) := ⟨_, rfl⟩
    rw [tag]
    cases floating : type.primitive?.any (·.isFloating) with
    | false =>
      rw [floating] at made
      refine ⟨z, _, type, s, number, made, t.literal_int s floating, ?_⟩
      rw [floating]
      exact denotes_integer_iff spelled
    | true =>
      rw [floating] at made
      refine ⟨z, _, type, floatText s, number, made, t.literal_float s floating, ?_⟩
      rw [floating]
      exact denotes_floated_iff spelled start
  · obtain ⟨⟨d, spelled⟩, c, head, start⟩ := decimal?_of_tag tag word
    have start : s.toList.head? ≠ some '_' := by
      rw [head]
      rintro ⟨⟩
      revert start
      decide
    have number : Yaml.number? s = some d.value := by simp [Yaml.number?, tag, spelled]
    obtain ⟨type, made, floating⟩ : ∃ type, Resolver.literalOf (.scalar mark .float s) hint = .ok (⟨.float, s⟩, type) ∧
        type.primitive?.any (·.isFloating) := by
      refine ⟨_, rfl, ?_⟩
      split <;> rfl
    rw [tag]
    refine ⟨d.value, _, type, floatText s, number, made, t.literal_float s floating, ?_⟩
    rw [floating]
    exact denotes_decimal_iff spelled start

/-- A number behind a zero, with a separator, is octal in Java as well. -/
theorem number_literal_octal : Yaml.number? "0_17" = some 15 ∧
    java.denotes (java.literal ⟨.int, "0_17"⟩ (some .int)) 15 false := by
  have fifteen : Yaml.number? "0_17" = some 15 := by decide +kernel
  obtain ⟨x, c, type, stem, number, made, text, denotes⟩ :=
    number_literal_iff java "0_17" none ⟨1, 1⟩ (.inl (by decide +kernel))
  have int : Resolver.literalOf (.ofScalar ⟨1, 1⟩ none "0_17" true) none = .ok (⟨.int, "0_17"⟩, .int) := by rfl
  cases int.symm.trans made
  cases fifteen.symm.trans number
  refine ⟨fifteen, ?_⟩
  have same : stem = java.literal ⟨.int, "0_17"⟩ (some .int) := by
    rw [text]
    exact String.append_empty.symm
  rw [← same]
  exact denotes.mpr (by decide +kernel)

/-- The last digit looks like a type, and what is left gets a point: no target reads it. -/
theorem number_literal_sixteen_lost : Yaml.number? "0x1F" = some 31 ∧
    Resolver.literalOf (.ofScalar ⟨1, 1⟩ none "0x1F" true) (some (.primitive .float64)) =
      .ok (⟨.float, "0x1F"⟩, .primitive .float64) ∧
    (all.filter fun t => t.denotes (t.literal ⟨.float, "0x1F"⟩ (some (.primitive .float64))) 31 true) = [] := by
  refine ⟨by decide +kernel, by rfl, by decide +kernel⟩

end Target

end Polyglot
