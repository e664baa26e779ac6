import Polyglot.Proofs.ScalarNumbers
import Polyglot.Resolve.Expr

/-!
# Types of integer literals

An integer literal without a type of its own gets one by its value, which is read from the text as it stands: digits in the
base that they announce, with separators between them, as a signed number of 64 bits. A document has more integers: unsigned
numbers of 64 bits, separators anywhere, and a sign behind `0b` and `0o`. What cannot be read is taken for a small number.
-/

namespace Polyglot

open List Text Yaml

/-- The values of an integer type. -/
def Primitive.Holds (p : Primitive) (z : Int) : Prop :=
  if p.isUnsigned then 0 ≤ z ∧ z < Int.pow 2 p.bits else -Int.pow 2 (p.bits - 1) ≤ z ∧ z < Int.pow 2 (p.bits - 1)

variable {cs : List Char} {m : Nat} {z : Int}

theorem holds_int32 : Primitive.int32.Holds z ↔ -2147483648 ≤ z ∧ z < 2147483648 := .rfl

theorem holds_int64 : Primitive.int64.Holds z ↔ -9223372036854775808 ≤ z ∧ z < 9223372036854775808 := .rfl

/-- **Separators in their places do not matter** to the digits and to the base that they announce. -/
theorem announced?_ungrouped (read : magnitude? cs = some m) : announced? (ungrouped cs) = some m := by
  simp only [magnitude?, Option.ite_none_right_eq_some] at read
  obtain ⟨placed, digits⟩ := read
  by_cases zero : ∃ x rest, cs = '0' :: x :: rest
  · obtain ⟨x, rest, rfl⟩ := zero
    rw [ungrouped_cons (by decide)]
    by_cases separator : x = '_'
    · -- A separator behind the zero has a digit behind it, which announces no base.
      subst separator
      cases rest with
      | nil => cases placed
      | cons d rest =>
        have digit : d.isDigit := by
          by_contra other
          simp [announcedBase, separatorsOk, other] at placed
        have letters : ∀ c ∈ '_' :: baseLetters, c.isDigit = false := forall_mem_of_all rfl
        obtain ⟨other, noLetter⟩ : d ≠ '_' ∧ d ∉ baseLetters :=
          not_or.mp fun letter => by simp [letters d (mem_cons.mpr letter)] at digit
        have skipped : ungrouped ('_' :: d :: rest) = d :: ungrouped rest := ungrouped_cons other rest
        rw [skipped, announced?_zero, if_neg noLetter, ← skipped]
        exact digits
    · rw [ungrouped_cons separator, announced?_zero]
      by_cases known : x ∈ baseLetters
      · simp only [baseLetters, mem_cons, not_mem_nil, or_false] at known
        rcases known with rfl | rfl | rfl | rfl | rfl | rfl <;> exact digits
      · rw [if_neg known, ← ungrouped_cons separator]
        simp only [baseLetters, mem_cons, not_or] at known
        simpa [announcedBase, known, ungrouped] using digits
  · have decimal : announcedBase cs = (10, cs, false) := by
      unfold announcedBase
      split
      · exact absurd ⟨_, _, rfl⟩ zero
      · rfl
    rw [decimal] at placed digits
    rw [announced?_other]
    · exact digits
    · intro x rest same
      cases cs with
      | nil => cases same
      | cons c cs =>
        by_cases separator : c = '_'
        · subst separator
          cases placed
        · rw [ungrouped_cons separator] at same
          obtain ⟨rfl, more⟩ := cons.inj same
          cases cs with
          | nil => cases more
          | cons d cs => exact zero ⟨d, cs, rfl⟩

/-- **What a scalar stands for** where its digits can be read as they stand. -/
theorem integer?_of_announced (plain : '_' ∉ cs) (digits : announced? (Sign.cut cs).2 = some m) (read : integer? cs = some z) :
    z = Sign.apply (Sign.cut cs).1 (m : Int) := by
  rcases integer?_cases plain read with ⟨m', spelled, rfl⟩ | ⟨letter, known, rest, body, m', spelled, value⟩
  · cases digits.symm.trans spelled
    rfl
  · rw [body, announced?_zero, if_pos known] at digits
    rw [Sign.cut_of_unsigned (unsigned_of_digits? digits)] at spelled value
    cases digits.symm.trans spelled
    exact value rfl

theorem signed64?_eq_some : signed64? cs = some z ↔
    ∃ m : Nat, magnitude? (Sign.cut cs).2 = some m ∧ z = Sign.apply (Sign.cut cs).1 (m : Int) ∧ Primitive.int64.Holds z := by
  have bound : Nat.pow 2 63 = 9223372036854775808 := rfl
  rw [signed64?, readSigned64, Sign.cutSign_eq]
  dsimp only
  cases magnitude? (Sign.cut cs).2 with
  | none => simp [Except.toOption]
  | some m =>
    simp only [Option.some.injEq, exists_eq_left', holds_int64, Sign.apply, decide_eq_true_eq]
    split_ifs with minus fits fits <;> simp only [Except.toOption, Option.some.injEq, reduceCtorEq, false_iff] <;> omega

namespace Resolver

/-- The type of an integer by what is read from its text: the wide one for a number that the narrow one does not hold. -/
theorem integerType_eq (s : String) : ∃ p : Primitive, integerType s = .primitive p ∧
    (p = .int64 ∧ (∃ n, signed64? s.toList = some n ∧ ¬ Primitive.int32.Holds n) ∨
      p = .int32 ∧ ∀ n, signed64? s.toList = some n → Primitive.int32.Holds n) := by
  have bound : Int.pow 2 31 = 2147483648 := rfl
  unfold integerType
  cases signed64? s.toList with
  | none => exact ⟨.int32, rfl, .inr ⟨rfl, by simp⟩⟩
  | some n =>
    simp only [Bool.or_eq_true, decide_eq_true_eq, Option.some.injEq, exists_eq_left', holds_int32]
    split_ifs with wide
    · exact ⟨.int64, rfl, .inl ⟨rfl, by omega⟩⟩
    · exact ⟨.int32, rfl, .inr ⟨rfl, by omega⟩⟩

/-- **Which integer literals get a type that holds them.** Every scalar that is an integer becomes an integer constant with a
type. Its type holds its value exactly if the value is small, or is a signed one of 64 bits whose digits can be read as they
stand: with no separator but between digits, and with no sign behind the base. -/
theorem literal_type_holds_iff (s : String) (mark : Yaml.Mark) (tag : Tag.ofPlain s = .int) :
    ∃ (z : Int) (p : Primitive), Yaml.number? s = some (z : ℚ) ∧
      literalOf (.ofScalar mark none s true) none = .ok (⟨.int, s⟩, .primitive p) ∧
      (p.Holds z ↔ Primitive.int32.Holds z ∨ Primitive.int64.Holds z ∧ (magnitude? (Sign.cut s.toList).2).isSome) := by
  have node : Node.ofScalar mark none s true = .scalar mark .int s := by
    have other : s ≠ "<<" := by
      rintro rfl
      cases tag
    simp [Node.ofScalar, other, tag]
  obtain ⟨⟨z, spelled⟩, c, head, start⟩ := integer?_of_tag tag
  have start : s.toList.head? ≠ some '_' := by
    rw [head]
    rintro ⟨⟩
    revert start
    decide
  have value (m : Nat) (read : magnitude? (Sign.cut s.toList).2 = some m) : z = Sign.apply (Sign.cut s.toList).1 (m : Int) := by
    have cut := Numeral.cut_ungrouped_of_head start
    have digits : announced? (Sign.cut (ungrouped s.toList)).2 = some m := by
      rw [cut]
      exact announced?_ungrouped read
    rw [integer?_of_announced (underscore_notMem_ungrouped _) digits spelled, cut]
  have signed (n : Int) (read : signed64? s.toList = some n) : n = z := by
    obtain ⟨m, digits, rfl, -⟩ := signed64?_eq_some.mp read
    exact (value m digits).symm
  obtain ⟨p, type, known⟩ := integerType_eq s
  refine ⟨z, p, by simp [Yaml.number?, tag, spelled], ?_, ?_⟩
  · have integral : p.isFloating = false := by rcases known with ⟨rfl, -⟩ | ⟨rfl, -⟩ <;> rfl
    simp [node, literalOf, type, Ty.primitive?, integral]
  · rcases known with ⟨rfl, n, read, -⟩ | ⟨rfl, small⟩
    · obtain rfl := signed n read
      obtain ⟨m, digits, -, fits⟩ := signed64?_eq_some.mp read
      simp [fits, digits]
    · refine ⟨.inl, ?_⟩
      rintro (holds | ⟨fits, readable⟩)
      · exact holds
      · obtain ⟨m, digits⟩ := Option.isSome_iff_exists.mp readable
        exact small z (signed64?_eq_some.mpr ⟨m, digits, value m digits, fits⟩)

theorem literal_type_holds_grouped : Tag.ofPlain "0x8000_0000" = .int ∧ Yaml.number? "0x8000_0000" = some 2147483648 ∧
    literalOf (.ofScalar ⟨1, 1⟩ none "0x8000_0000" true) none = .ok (⟨.int, "0x8000_0000"⟩, .primitive .int64) ∧
    Primitive.int64.Holds 2147483648 := by
  have tag : Tag.ofPlain "0x8000_0000" = .int := by decide +kernel
  have large : Yaml.number? "0x8000_0000" = some 2147483648 := by decide +kernel
  have long : literalOf (.ofScalar ⟨1, 1⟩ none "0x8000_0000" true) none = .ok (⟨.int, "0x8000_0000"⟩, .primitive .int64) := by rfl
  obtain ⟨z, p, number, made, holds⟩ := literal_type_holds_iff "0x8000_0000" ⟨1, 1⟩ tag
  cases long.symm.trans made
  obtain rfl : z = 2147483648 := by exact_mod_cast Option.some.inj (number.symm.trans large)
  exact ⟨tag, large, long, holds.mpr (.inr ⟨holds_int64.mpr (by decide), by decide +kernel⟩)⟩

/-- An unsigned number of 64 bits gets the narrow type. -/
theorem literal_type_too_narrow : Yaml.number? "9223372036854775808" = some 9223372036854775808 ∧
    literalOf (.ofScalar ⟨1, 1⟩ none "9223372036854775808" true) none = .ok (⟨.int, "9223372036854775808"⟩, .int) ∧
    ¬ Primitive.int32.Holds 9223372036854775808 :=
  ⟨by decide +kernel, rfl, mt holds_int32.mp (by decide)⟩

end Resolver

end Polyglot
