import Mathlib.Tactic.SplitIfs
import Polyglot.Proofs.Numerals

/-!
# The numbers of scalars

A plain scalar is a number by its spelling without separators: an integer of 64 bits in the base that it announces, where a
zero in front makes it octal and a sign may stand behind `0b` and `0o`, or else a decimal. Where the scalar is a numeral, this
module says which number it is.
-/

namespace Polyglot

open List Text

/-! ## Digits -/

namespace Text

variable {base : Nat} {cs ds : List Char} {m n : Nat}

theorem foldDigits?_cons_eq_some {c : Char} : foldDigits? base (c :: cs) n = some m ↔
    ∃ d, digitValue? c = some d ∧ d < base ∧ foldDigits? base cs (n * base + d) = some m := by
  rw [foldDigits?]
  cases digitValue? c with
  | none => simp
  | some d => by_cases small : d < base <;> simp

theorem foldDigits?_append : foldDigits? base (cs ++ ds) n = (foldDigits? base cs n).bind (foldDigits? base ds) := by
  induction cs generalizing n with
  | nil => rfl
  | cons c cs ih =>
    rw [cons_append, foldDigits?, foldDigits?]
    split
    · split
      · exact ih
      · rfl
    · rfl

theorem digits?_eq_some : digits? base cs = some m ↔ cs ≠ [] ∧ foldDigits? base cs 0 = some m := by
  cases cs <;> simp [digits?]

/-- A zero in front of digits adds nothing. -/
theorem digits?_zero (some_base : 0 < base) (c : Char) (cs : List Char) :
    digits? base ('0' :: c :: cs) = digits? base (c :: cs) := by
  have zero : digitValue? '0' = some 0 := rfl
  rw [digits?, digits?, foldDigits?, zero]
  simp [some_base]

/-- More digits do not make a number smaller. -/
theorem le_of_foldDigits? (some_base : 0 < base) (read : foldDigits? base cs n = some m) : n ≤ m := by
  induction cs generalizing n with
  | nil => exact (Option.some.inj read).le
  | cons c cs ih =>
    obtain ⟨d, -, -, rest⟩ := foldDigits?_cons_eq_some.mp read
    have grows : n ≤ n * base := Nat.le_mul_of_pos_right n some_base
    have := ih rest
    omega

theorem digit_of_foldDigits? (read : foldDigits? base cs n = some m) : ∀ c ∈ cs, ∃ d, digitValue? c = some d ∧ d < base := by
  induction cs generalizing n with
  | nil => exact nofun
  | cons c cs ih =>
    obtain ⟨d, value, small, rest⟩ := foldDigits?_cons_eq_some.mp read
    rintro c' (_ | ⟨_, mem⟩)
    · exact ⟨d, value, small⟩
    · exact ih rest c' mem

/-- **Octal digits read as decimal ones**: they give at least as much, and the same only below eight. -/
theorem foldDigits?_ten_of_eight {k : Nat} (le : n ≤ k) (same : n = k ↔ n < 8) (read : foldDigits? 8 cs n = some m) :
    ∃ m', foldDigits? 10 cs k = some m' ∧ m ≤ m' ∧ (m = m' ↔ m < 8) := by
  induction cs generalizing n k with
  | nil =>
    cases read
    exact ⟨k, rfl, le, same⟩
  | cons c cs ih =>
    obtain ⟨d, value, small, rest⟩ := foldDigits?_cons_eq_some.mp read
    obtain ⟨m', read', le', same'⟩ := ih (n := n * 8 + d) (k := k * 10 + d) (by omega) (by omega) rest
    exact ⟨m', foldDigits?_cons_eq_some.mpr ⟨d, value, by omega, read'⟩, le', same'⟩

theorem isDigit_of_digitValue? {c : Char} {d : Nat} (value : digitValue? c = some d) (small : d < 10) : c.isDigit := by
  unfold digitValue? at value
  split at value
  · next range => simpa [Char.isDigit, Char.le_def] using range
  · split at value
    · cases value
      omega
    · split at value
      · cases value
        omega
      · cases value

theorem isDigit_of_digits? (small : base ≤ 10) (read : digits? base cs = some m) : ∀ c ∈ cs, c.isDigit := by
  intro c mem
  obtain ⟨d, value, below⟩ := digit_of_foldDigits? (digits?_eq_some.mp read).2 c mem
  exact isDigit_of_digitValue? value (by omega)

theorem separatorsOk_of_notMem {isDigit : Char → Bool} {seen : Seen} (start : seen ≠ .separator) (plain : '_' ∉ cs) :
    separatorsOk isDigit seen cs = true := by
  induction cs generalizing seen with
  | nil => simpa [separatorsOk] using start
  | cons c cs ih =>
    obtain ⟨here, rest⟩ : '_' ≠ c ∧ '_' ∉ cs := by simpa using plain
    have goesOn {next : Seen} (other : next ≠ .separator) : separatorsOk isDigit next cs = true := ih other rest
    rw [separatorsOk]
    split
    · exact goesOn (by decide)
    · rw [if_neg (Ne.symm here)]
      simpa [start] using goesOn (by decide)

theorem magnitude?_of_notMem (plain : '_' ∉ cs) : magnitude? cs = digits? (announcedBase cs).1 (announcedBase cs).2.1 := by
  have inside : '_' ∉ (announcedBase cs).2.1 := by
    unfold announcedBase
    split
    · split
      · simp_all
      · split
        · simp_all
        · split <;> simp_all
    · exact plain
  have ungrouped : (announcedBase cs).2.1.filter (· ≠ '_') = (announcedBase cs).2.1 :=
    filter_eq_self.mpr fun c mem => by
      have other : c ≠ '_' := fun same => inside (same ▸ mem)
      simpa using other
  rw [magnitude?]
  dsimp only
  rw [if_pos (separatorsOk_of_notMem (by split <;> decide) inside), ungrouped]

end Text


/-! ## The number of a scalar -/

namespace Yaml

/-- An integer in base two or eight whose sign may stand behind the base. -/
def lateSigned? : List Char → Option Int
  | '0' :: 'b' :: rest => signedIn64? 2 rest
  | '-' :: '0' :: 'b' :: rest => signedIn64? 2 ('-' :: rest)
  | '0' :: 'o' :: rest => signedIn64? 8 rest
  | '-' :: '0' :: 'o' :: rest => signedIn64? 8 ('-' :: rest)
  | _ => none

/-- The integer that a scalar without separators stands for. -/
def integer? (plain : List Char) : Option Int :=
  ((signed64? plain).or ((unsigned64? plain).map fun n : Nat => (n : Int))).or (lateSigned? plain)

/-- **The number that a plain scalar stands for**, if it is a finite one. -/
def number? (s : String) : Option ℚ :=
  match Tag.ofPlain s with
  | .int => (integer? (ungrouped s.toList)).map fun z : Int => (z : ℚ)
  | .float => (Decimal.ofChars? (ungrouped s.toList)).map Decimal.value
  | _ => none

theorem isSome_lateSigned? {cs : List Char} (late : isLateSigned cs) : (lateSigned? cs).isSome := by
  unfold isLateSigned at late
  split at late
  · exact late
  · exact late
  · exact late
  · exact late
  · cases late

variable {s : String}

/-- A scalar that is an integer spells one, behind a sign or a digit. -/
theorem integer?_of_tag (tag : Tag.ofPlain s = .int) : (∃ z, integer? (ungrouped s.toList) = some z) ∧
      ∃ c, s.toList.head? = some c ∧ (c = '+' ∨ c = '-' ∨ c.isDigit) := by
  unfold Tag.ofPlain at tag
  split at tag
  · next word =>
    subst tag
    simp only [wordTag?] at word
    split_ifs at word <;> cases word
  · split at tag
    · cases tag
    · next c rest chars =>
      rw [chars]
      split at tag
      · unfold pointTag at tag
        split at tag <;> cases tag
      · split at tag
        · next start =>
          refine ⟨?_, c, rfl, by simpa [or_assoc] using start⟩
          rw [← Option.isSome_iff_exists, integer?, Option.isSome_or, Option.isSome_or, Option.isSome_map, ungrouped]
          simp only [numberTag] at tag
          split_ifs at tag with _ inside _ late
          · rw [inside]
            rfl
          · rw [isSome_lateSigned? late, Bool.or_true]
        · cases tag

/-- A scalar that is a finite floating-point number spells a decimal. -/
theorem decimal?_of_tag (tag : Tag.ofPlain s = .float) (word : wordTag? s = none) :
    (∃ d, Decimal.ofChars? (ungrouped s.toList) = some d) ∧
      ∃ c, s.toList.head? = some c ∧ (c = '.' ∨ c = '+' ∨ c = '-' ∨ c.isDigit) := by
  have spelled {cs : List Char} (double : isDouble cs) : ∃ d, Decimal.ofChars? cs = some d :=
    Option.isSome_iff_exists.mp (Option.isSome_of_any double)
  unfold Tag.ofPlain at tag
  rw [word] at tag
  dsimp only at tag
  split at tag
  · cases tag
  · next c rest chars =>
    rw [chars]
    split at tag
    · next point =>
      simp only [pointTag] at tag
      split_ifs at tag with fits
      exact ⟨spelled (Bool.and_eq_true_iff.mp fits).2, c, rfl, .inl point⟩
    · split at tag
      · next start =>
        simp only [numberTag] at tag
        split_ifs at tag with _ _ double
        exact ⟨spelled double, c, rfl, .inr (by simpa [or_assoc] using start)⟩
      · cases tag

section Integers

variable {cs : List Char} {z : Int}

/-- Digits that a scalar without separators has, in the base that they announce. -/
def announced? (cs : List Char) : Option Nat := digits? (announcedBase cs).1 (announcedBase cs).2.1

theorem underscore_notMem_cut (plain : '_' ∉ cs) : '_' ∉ (Sign.cut cs).2 := fun mem =>
  plain (Sign.chars_cut cs ▸ mem_append_right _ mem)

theorem announced?_of_signed64? (plain : '_' ∉ cs) (read : signed64? cs = some z) :
    ∃ m : Nat, announced? (Sign.cut cs).2 = some m ∧ z = Sign.apply (Sign.cut cs).1 (m : Int) := by
  rw [signed64?, readSigned64, Sign.cutSign_eq] at read
  dsimp only at read
  rw [magnitude?_of_notMem (underscore_notMem_cut plain)] at read
  split at read
  · cases read
  · next m digits =>
    refine ⟨m, digits, ?_⟩
    unfold Sign.apply
    split_ifs at read ⊢ <;> simp_all [Except.toOption]

variable {n : Nat} {sign : Option Sign}

theorem announced?_of_unsigned64? (plain : '_' ∉ cs) (read : unsigned64? cs = some n) : announced? cs = some n := by
  rw [unsigned64?, magnitude?_of_notMem plain] at read
  split at read
  · next m digits =>
    split_ifs at read
    exact Option.some.inj read ▸ digits
  · cases read

theorem digits?_of_signedIn64? {base : Nat} (read : signedIn64? base cs = some z) :
    ∃ m : Nat, digits? base (Sign.cut cs).2 = some m ∧ z = Sign.apply (Sign.cut cs).1 (m : Int) := by
  rw [signedIn64?, Sign.cutSign_eq] at read
  dsimp only at read
  split at read
  · cases read
  · next m digits =>
    refine ⟨m, digits, ?_⟩
    unfold Sign.apply
    split_ifs at read ⊢ <;> simp_all

theorem unsigned_of_digits? {base : Nat} (read : digits? base cs = some n) : Sign.Unsigned cs := by
  cases cs with
  | nil => exact ⟨nofun, nofun⟩
  | cons c cs =>
    obtain ⟨d, value, -⟩ := digit_of_foldDigits? read c mem_cons_self
    constructor
    all_goals
      rintro ⟨⟩
      cases value

theorem unsigned_of_announced? (read : announced? cs = some n) : Sign.Unsigned cs := by
  unfold announced? announcedBase at read
  split at read
  · exact ⟨by simp, by simp⟩
  · exact unsigned_of_digits? read

/-- **What an integer looks like**: a sign and digits in the base that they announce, or in base two and eight the sign behind
the letter. -/
theorem integer?_cases (plain : '_' ∉ cs) (read : integer? cs = some z) :
    (∃ m : Nat, announced? (Sign.cut cs).2 = some m ∧ z = Sign.apply (Sign.cut cs).1 (m : Int)) ∨
      ∃ letter ∈ baseLetters, ∃ rest, (Sign.cut cs).2 = '0' :: letter :: rest ∧
        ∃ m : Nat, digits? (baseOf letter) (Sign.cut rest).2 = some m ∧
          ((Sign.cut rest).1 = none → z = Sign.apply (Sign.cut cs).1 (m : Int)) := by
  have late (letter : Char) {rest : List Char} (read : signedIn64? (baseOf letter) rest = some z) :
      ∃ m : Nat, digits? (baseOf letter) (Sign.cut rest).2 = some m ∧ ((Sign.cut rest).1 = none → z = (m : Int)) := by
    obtain ⟨m, digits, rfl⟩ := digits?_of_signedIn64? read
    refine ⟨m, digits, fun unsigned => ?_⟩
    rw [unsigned]
    rfl
  have negative (letter : Char) {rest : List Char} (read : signedIn64? (baseOf letter) ('-' :: rest) = some z) :
      ∃ m : Nat, digits? (baseOf letter) (Sign.cut rest).2 = some m ∧ ((Sign.cut rest).1 = none → z = -(m : Int)) := by
    obtain ⟨m, digits, rfl⟩ := digits?_of_signedIn64? read
    have digits : digits? (baseOf letter) rest = some m := digits
    rw [Sign.cut_of_unsigned (unsigned_of_digits? digits)]
    exact ⟨m, digits, fun _ => rfl⟩
  rcases Option.or_eq_some_iff.mp read with within | ⟨-, signedLate⟩
  · rcases Option.or_eq_some_iff.mp within with signed | ⟨-, unsigned⟩
    · exact .inl (announced?_of_signed64? plain signed)
    · obtain ⟨n, natural, rfl⟩ := Option.map_eq_some_iff.mp unsigned
      have digits := announced?_of_unsigned64? plain natural
      rw [Sign.cut_of_unsigned (unsigned_of_announced? digits)]
      exact .inl ⟨n, digits, rfl⟩
  · right
    unfold lateSigned? at signedLate
    split at signedLate
    · exact ⟨'b', by decide, _, rfl, late 'b' signedLate⟩
    · exact ⟨'b', by decide, _, rfl, negative 'b' signedLate⟩
    · exact ⟨'o', by decide, _, rfl, late 'o' signedLate⟩
    · exact ⟨'o', by decide, _, rfl, negative 'o' signedLate⟩
    · cases signedLate

/-- Digits behind a zero, which may announce a base with a letter. -/
theorem announced?_zero (letter : Char) (digits : List Char) : announced? ('0' :: letter :: digits) =
    if letter ∈ baseLetters then digits? (baseOf letter) digits else digits? 8 (letter :: digits) := by
  by_cases known : letter ∈ baseLetters
  · simp only [baseLetters, mem_cons, not_mem_nil, or_false] at known
    rcases known with rfl | rfl | rfl | rfl | rfl | rfl <;> rfl
  · rw [if_neg known]
    simp only [baseLetters, mem_cons, not_or] at known
    simp [announced?, announcedBase, known]

theorem announced?_other (other : ∀ x rest, cs ≠ '0' :: x :: rest) : announced? cs = digits? 10 cs := by
  unfold announced? announcedBase
  split
  · exact absurd rfl (other _ _)
  · rfl

theorem integer?_announced {letter : Char} {digits : List Char} (formed : (Spelling.announced letter digits).WellFormed)
    (read : integer? (ungrouped (Numeral.chars ⟨sign, .announced letter digits⟩)) = some z) :
    ∃ m : Nat, digits? (baseOf letter) (ungrouped digits) = some m ∧ z = Sign.apply sign (m : Int) := by
  have cut := Numeral.cut_ungrouped (n := ⟨sign, .announced letter digits⟩) formed
  rcases integer?_cases (underscore_notMem_ungrouped _) read with ⟨m, spelled, rfl⟩ | ⟨late, -, rest, body, m, spelled, value⟩
  · rw [cut] at spelled ⊢
    rw [Spelling.plain, Spelling.chars, announced?_zero, if_pos formed.1] at spelled
    exact ⟨m, spelled, rfl⟩
  · rw [cut] at body value
    cases body
    have unsigned : Sign.cut (ungrouped digits) = (none, ungrouped digits) :=
      Sign.cut_of_unsigned (Sign.unsigned_of_head rfl rfl fun c head => formed.plain.2 c (mem_of_mem_head? head))
    rw [unsigned] at spelled value
    exact ⟨m, spelled, value rfl⟩

/-- Digits without a letter: behind a zero they are octal. -/
theorem announced?_eq_some {m : Nat} (noLetter : ∀ c ∈ cs, c ∉ baseLetters) (read : announced? cs = some m) :
    (∀ c ∈ cs, c.isDigit) ∧ digits? (if cs.head? = some '0' && 1 < cs.length then 8 else 10) cs = some m := by
  by_cases zero : ∃ x rest, cs = '0' :: x :: rest
  · obtain ⟨x, rest, rfl⟩ := zero
    rw [announced?_zero, if_neg (noLetter x (by simp))] at read
    refine ⟨forall_mem_cons.mpr ⟨rfl, isDigit_of_digits? (by decide) read⟩, ?_⟩
    simpa [digits?_zero] using read
  · have other : ∀ x rest, cs ≠ '0' :: x :: rest := fun x rest same => zero ⟨x, rest, same⟩
    rw [announced?_other other] at read
    refine ⟨isDigit_of_digits? (Nat.le_refl _) read, ?_⟩
    rw [if_neg]
    · exact read
    · intro zero
      rcases cs with _ | ⟨c, _ | ⟨x, rest⟩⟩ <;> simp_all

theorem integer?_decimal {whole : List Char} {fraction : Option (List Char)} {exponent : Option Exponent}
    (formed : (Spelling.decimal whole fraction exponent).WellFormed)
    (read : integer? (ungrouped (Numeral.chars ⟨sign, .decimal whole fraction exponent⟩)) = some z) :
    fraction = none ∧ exponent = none ∧ ∃ m : Nat, digits? (if hasLeadingZero whole then 8 else 10) (ungrouped whole) = some m ∧
        z = Sign.apply sign (m : Int) := by
  have cut := Numeral.cut_ungrouped (n := ⟨sign, .decimal whole fraction exponent⟩) formed
  have noLetter {c : Char} (mem : c ∈ (Spelling.plain (.decimal whole fraction exponent)).chars) : c ∉ baseLetters :=
    Spelling.not_mem_baseLetters formed.plain mem
  rcases integer?_cases (underscore_notMem_ungrouped _) read with ⟨m, spelled, rfl⟩ | ⟨late, known, rest, body, -⟩
  · rw [cut] at spelled ⊢
    obtain ⟨digits, value⟩ := announced?_eq_some (fun c mem => noLetter mem) spelled
    have noFraction : fraction = none := by
      cases fraction with
      | none => rfl
      | some f => cases digits '.' (by simp [Spelling.plain, Spelling.chars])
    have noExponent : exponent = none := by
      cases exponent with
      | none => rfl
      | some e =>
        have digit := digits e.letter (by simp [Spelling.plain, Spelling.chars, Exponent.chars])
        rcases (formed.2.2 e rfl).letter with same | same <;> cases same ▸ digit
    subst noFraction noExponent
    refine ⟨rfl, rfl, m, ?_, rfl⟩
    simpa [Spelling.plain, Spelling.chars, hasLeadingZero] using value
  · rw [cut] at body
    have body : (Spelling.plain (.decimal whole fraction exponent)).chars = '0' :: late :: rest := body
    exact absurd known (noLetter (by rw [body]; simp))

end Integers

end Yaml

/-! ### Decimals -/

namespace Numeral

/-- Separators behind the first character leave the sign alone. -/
theorem cut_ungrouped_of_head {cs : List Char} (start : cs.head? ≠ some '_') :
    Sign.cut (ungrouped cs) = ((Sign.cut cs).1, ungrouped (Sign.cut cs).2) := by
  cases cs with
  | nil => rfl
  | cons c cs =>
    have other : c ≠ '_' := fun same => start (same ▸ rfl)
    rw [ungrouped_cons other]
    by_cases plus : c = '+'
    · subst plus
      rfl
    · by_cases minus : c = '-'
      · subst minus
        rfl
      · have unsigned (cs : List Char) : Sign.cut (c :: cs) = (none, c :: cs) :=
          Sign.cut_of_unsigned ⟨by simpa using plus, by simpa using minus⟩
        rw [unsigned, unsigned, ungrouped_cons other]

/-- Digits behind a sign are a numeral, with separators among them. -/
theorem ofChars?_of_digits {cs : List Char} (start : cs.head? ≠ some '_')
    (digits : ∀ c ∈ (Sign.cut (ungrouped cs)).2, c.isDigit) :
    ∃ sign whole, ofChars? cs = some ⟨sign, .decimal whole none none⟩ := by
  refine ⟨(Sign.cut cs).1, (Sign.cut cs).2, ofChars?_eq_some_iff.mpr ⟨?_, ?_, nofun, nofun⟩⟩
  · simpa [chars, Spelling.chars] using Sign.chars_cut cs
  · intro c mem
    rw [cut_ungrouped_of_head start] at digits
    by_cases separator : c = '_'
    · simp [isGrouped, separator]
    · simp [isGrouped, digits c (mem_ungrouped separator mem)]

end Numeral

namespace Yaml

section Integers

variable {cs : List Char} {z : Int} {c : Char}

theorem mem_announced? {m : Nat} (read : announced? cs = some m) (mem : c ∈ cs) : (digitValue? c).isSome ∨ c ∈ baseLetters := by
  have digit {base : Nat} {cs : List Char} (read : digits? base cs = some m) (mem : c ∈ cs) : (digitValue? c).isSome := by
    obtain ⟨d, value, -⟩ := digit_of_foldDigits? (digits?_eq_some.mp read).2 c mem
    rw [value]
    rfl
  by_cases zero : ∃ x rest, cs = '0' :: x :: rest
  · obtain ⟨x, rest, rfl⟩ := zero
    rcases mem_cons.mp mem with rfl | mem
    · exact .inl rfl
    rw [announced?_zero] at read
    split at read
    · next known =>
      rcases mem_cons.mp mem with rfl | mem
      · exact .inr known
      · exact .inl (digit read mem)
    · exact .inl (digit read mem)
  · rw [announced?_other fun x rest same => zero ⟨x, rest, same⟩] at read
    exact .inl (digit read mem)

theorem mem_integer (spelled : integer? (ungrouped cs) = some z) (mem : c ∈ cs) :
    isBased c ∨ (c = '+' ∨ c = '-') ∨ c ∈ baseLetters := by
  by_cases separator : c = '_'
  · exact .inl (by simp [isBased, separator])
  have inside := mem_ungrouped separator mem
  rw [← Sign.chars_cut (ungrouped cs)] at inside
  rcases mem_append.mp inside with sign | body
  · exact .inr (.inl (Sign.mem_chars sign))
  rcases integer?_cases (underscore_notMem_ungrouped cs) spelled with ⟨m, read, -⟩ | ⟨letter, known, rest, same, m, read, -⟩
  · rcases mem_announced? read body with digit | letter
    · exact .inl (by simp [isBased, digit])
    · exact .inr (.inr letter)
  · rw [same] at body
    rcases mem_cons.mp body with rfl | body
    · exact .inl rfl
    rcases mem_cons.mp body with rfl | body
    · exact .inr (.inr known)
    rw [← Sign.chars_cut rest] at body
    rcases mem_append.mp body with sign | digits
    · exact .inr (.inl (Sign.mem_chars sign))
    · obtain ⟨d, value, -⟩ := digit_of_foldDigits? (digits?_eq_some.mp read).2 c digits
      exact .inl (by simp [isBased, value])

theorem numeral_of_integer? (spelled : integer? (ungrouped cs) = some z) (start : cs.head? ≠ some '_')
    (noLetter : ∀ c ∈ cs, c ∉ baseLetters) : ∃ sign whole, Numeral.ofChars? cs = some ⟨sign, .decimal whole none none⟩ := by
  have inside {c : Char} (mem : c ∈ (Sign.cut (ungrouped cs)).2) : c ∉ baseLetters := by
    refine noLetter c (mem_of_mem_ungrouped ?_)
    rw [← Sign.chars_cut (ungrouped cs)]
    exact mem_append_right _ mem
  rcases integer?_cases (underscore_notMem_ungrouped cs) spelled with ⟨m, read, -⟩ | ⟨letter, known, rest, body, -⟩
  · exact Numeral.ofChars?_of_digits start (announced?_eq_some (fun c mem => inside mem) read).1
  · exact absurd known (inside (by rw [body]; simp))

end Integers

variable {cs whole : List Char} {exponent : Option Exponent}

theorem isDigit_of_ungrouped (grouped : ∀ c ∈ cs, isGrouped c) : ∀ c ∈ ungrouped cs, c.isDigit := by
  intro c mem
  have other : c ≠ '_' := fun same => underscore_notMem_ungrouped cs (same ▸ mem)
  simpa [isGrouped, other] using grouped c (mem_of_mem_ungrouped mem)

theorem exponent?_chars (formed : ∀ e ∈ exponent, e.WellFormed) :
    exponent? (((exponent.map fun e => { e with digits := ungrouped e.digits }).map Exponent.chars).getD []) =
      Exponent.power? exponent := by
  cases exponent with
  | none => rfl
  | some e =>
    obtain ⟨letter, digits⟩ := formed e rfl
    have isLetter : (e.letter = 'e' || e.letter = 'E') = true := by simpa using letter
    have unsigned : Sign.Unsigned (ungrouped e.digits) :=
      Sign.unsigned_of_head rfl rfl fun c head => digits c (mem_of_mem_ungrouped (mem_of_mem_head? head))
    simp only [Option.map_some, Option.getD_some, Exponent.chars, exponent?]
    rw [if_pos isLetter, Sign.cutSign_eq, Sign.cut_chars e.sign unsigned]
    cases number : digits? 10 (ungrouped e.digits) <;> simp [Exponent.power?, Sign.apply, number]

/-- The digits behind the point, and what follows them. -/
def fractionPart : List Char → List Char × List Char
  | '.' :: more => takeDigits more
  | rest => ([], rest)

/-- The decimal with a sign, the digits before the point, and those behind it with what follows them. -/
def Decimal.ofParts? (negative : Bool) (whole : List Char) (behind : List Char × List Char) : Option Decimal :=
  if whole.isEmpty && behind.1.isEmpty then none
  else
    match exponent? behind.2, digits? 10 (whole ++ behind.1) with
    | some e, some n => some ⟨negative, n, e - behind.1.length⟩
    | _, _ => none

theorem Decimal.ofChars?_eq {rest fraction tail : List Char} (before : takeDigits (Sign.cut cs).2 = (whole, rest))
    (behind : fractionPart rest = (fraction, tail)) :
    Decimal.ofChars? cs = (digits? 10 (whole ++ fraction)).bind fun n => (exponent? tail).bind fun e =>
      some ⟨(Sign.cut cs).1 = some .minus, n, e - fraction.length⟩ := by
  have parts : Decimal.ofChars? cs = Decimal.ofParts? ((Sign.cut cs).1 = some .minus) whole (fraction, tail) := by
    rw [← behind, Decimal.ofChars?, Sign.cutSign_eq]
    dsimp only
    rw [before]
    cases rest with
    | nil => rfl
    | cons c more =>
      by_cases point : c = '.'
      · subst point
        rfl
      · cases power : exponent? (c :: more) <;> cases number : digits? 10 whole <;>
          simp [fractionPart, Decimal.ofParts?, point, power, number]
  rw [parts, Decimal.ofParts?]
  split
  · next empty =>
    simp only [Bool.and_eq_true, List.isEmpty_iff] at empty
    rw [empty.1, empty.2]
    rfl
  · cases digits? 10 (whole ++ fraction) <;> cases exponent? tail <;> rfl

/-- **The decimal that a numeral spells** is what is left without its separators. -/
theorem Decimal.ofChars?_ungrouped {sign : Option Sign} {fraction : Option (List Char)}
    (formed : (Spelling.decimal whole fraction exponent).WellFormed) :
    Decimal.ofChars? (ungrouped (Numeral.chars ⟨sign, .decimal whole fraction exponent⟩)) =
      Numeral.decimal? ⟨sign, .decimal whole fraction exponent⟩ := by
  have cut := Numeral.cut_ungrouped (n := ⟨sign, .decimal whole fraction exponent⟩) formed
  obtain ⟨digits, more, power⟩ := formed
  have powers := exponent?_chars power
  have letter : ∀ c ∈ (((exponent.map fun e => { e with digits := ungrouped e.digits }).map Exponent.chars).getD []).head?,
      c.isDigit = false ∧ c ≠ '.' := by
    cases exponent with
    | none => exact nofun
    | some e =>
      rintro c ⟨⟩
      rcases (power e rfl).letter with same | same <;> simp only [same] <;> decide
  rw [Spelling.plain, Spelling.chars] at cut
  generalize ((exponent.map fun e => { e with digits := ungrouped e.digits }).map Exponent.chars).getD [] = tail
    at powers letter cut
  have ends : ∀ c ∈ tail.head?, c.isDigit = false := fun c head => (letter c head).1
  have spanned {group rest : List Char} (grouped : ∀ c ∈ group, isGrouped c) (stops : ∀ c ∈ rest.head?, c.isDigit = false) :
      takeDigits (ungrouped group ++ rest) = (ungrouped group, rest) :=
    have span := span_append (isDigit_of_ungrouped grouped) stops
    Prod.ext span.1 span.2
  cases fraction with
  | none =>
    have noPoint : fractionPart tail = ([], tail) := by
      unfold fractionPart
      split
      · exact absurd rfl (letter '.' rfl).2
      · rfl
    have before := spanned digits ends
    rw [Decimal.ofChars?_eq (by rw [cut]; exact before) noPoint, powers, cut]
    simp [Numeral.decimal?]
  | some f =>
    have point : ∀ c ∈ ('.' :: (ungrouped f ++ tail)).head?, c.isDigit = false := by
      rintro c ⟨⟩
      rfl
    have before := spanned digits point
    have behind : fractionPart ('.' :: (ungrouped f ++ tail)) = (ungrouped f, tail) := spanned (more f rfl) ends
    rw [Decimal.ofChars?_eq (by rw [cut]; exact before) behind, powers, cut]
    simp [Numeral.decimal?, ungrouped_append]

theorem exponent_of_exponent? {x : Int} (read : exponent? cs = some x) :
    ∃ exponent : Option Exponent, (exponent.map Exponent.chars).getD [] = cs ∧ ∀ e ∈ exponent, e.WellFormed := by
  cases cs with
  | nil => exact ⟨none, rfl, nofun⟩
  | cons c cs =>
    rw [exponent?, Sign.cutSign_eq] at read
    split_ifs at read with letter
    obtain ⟨_, read, -⟩ := Option.map_eq_some_iff.mp read
    obtain ⟨n, digits, -⟩ := Option.bind_eq_some_iff.mp read
    refine ⟨some ⟨c, (Sign.cut cs).1, (Sign.cut cs).2⟩, congrArg (c :: ·) (Sign.chars_cut cs), ?_⟩
    rintro e ⟨⟩
    refine ⟨by simpa using letter, fun d mem => ?_⟩
    simp [isGrouped, isDigit_of_digits? (Nat.le_refl _) digits d mem]

theorem Decimal.numeral_of_ofChars? {d : Decimal} (read : Decimal.ofChars? cs = some d) :
    ∃ sign whole fraction exponent, Numeral.chars ⟨sign, .decimal whole fraction exponent⟩ = cs ∧
      (Spelling.decimal whole fraction exponent).WellFormed := by
  have grouped (cs : List Char) : ∀ c ∈ cs.takeWhile Char.isDigit, isGrouped c := fun c mem => by
    simp [isGrouped, mem_takeWhile_imp mem]
  rw [Decimal.ofChars?_eq Prod.mk.eta.symm Prod.mk.eta.symm] at read
  obtain ⟨_, -, read⟩ := Option.bind_eq_some_iff.mp read
  obtain ⟨_, power, -⟩ := Option.bind_eq_some_iff.mp read
  obtain ⟨exponent, tail, formed⟩ := exponent_of_exponent? power
  unfold fractionPart takeDigits at tail
  split at tail
  · next more point =>
    refine ⟨(Sign.cut cs).1, (Sign.cut cs).2.takeWhile Char.isDigit, some (more.takeWhile Char.isDigit), exponent, ?_,
      grouped _, ?_, formed⟩
    · rw [Numeral.chars, Spelling.chars, tail]
      simp [← point, Sign.chars_cut]
    · rintro f ⟨⟩
      exact grouped more
  · refine ⟨(Sign.cut cs).1, (Sign.cut cs).2.takeWhile Char.isDigit, none, exponent, ?_, grouped _, ?_, formed⟩
    · rw [Numeral.chars, Spelling.chars, tail]
      simp [Sign.chars_cut]
    · exact fun _ mem => absurd mem (Option.not_mem_none _)

end Yaml

end Polyglot
