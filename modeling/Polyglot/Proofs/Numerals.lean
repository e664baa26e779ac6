import Mathlib.Algebra.Field.Rat
import Mathlib.Data.List.TakeWhile
import Polyglot.Proofs.Basic
import Polyglot.Target.Literal
import Polyglot.Yaml.Scalar

/-!
# How numbers are spelled

A numeral is a number as it stands in a text: a sign, and either digits behind a letter that announces their base, or decimal
digits with a point and an exponent. Every target takes some of these numerals for literals (`Target.numerals`). A sign counts
as part of the numeral, even if a target takes it for an operator.
-/

namespace Polyglot

open List Text

/-! ## Numerals -/

def isGrouped (c : Char) : Bool := c.isDigit || c = '_'

def isBased (c : Char) : Bool := (digitValue? c).isSome || c = '_'

def baseLetters : List Char := ['x', 'X', 'o', 'O', 'b', 'B']

def baseOf (letter : Char) : Nat :=
  if letter = 'x' || letter = 'X' then 16 else if letter = 'o' || letter = 'O' then 8 else 2

theorem baseOf_pos (letter : Char) : 0 < baseOf letter := by
  unfold baseOf
  split
  · decide
  · split <;> decide

/-- The digits of a group. -/
def ungrouped (cs : List Char) : List Char := cs.filter (· ≠ '_')

/-- The sign of a number. -/
inductive Sign where
  | plus
  | minus
deriving Repr, DecidableEq

namespace Sign

/-- How a sign is written, if there is one. -/
def chars : Option Sign → List Char
  | none => []
  | some plus => ['+']
  | some minus => ['-']

/-- The sign in front of a text, and what follows it. -/
def cut : List Char → Option Sign × List Char
  | '+' :: cs => (some plus, cs)
  | '-' :: cs => (some minus, cs)
  | cs => (none, cs)

def apply {α : Type} [Neg α] (sign : Option Sign) (x : α) : α := if sign = some minus then -x else x

end Sign

/-- An exponent of ten. -/
structure Exponent where
  letter : Char
  sign : Option Sign
  digits : List Char
deriving Repr, DecidableEq

/-- A number without its sign, as it is written. -/
inductive Spelling where
  /-- A zero, a letter that announces a base, and digits. -/
  | announced (letter : Char) (digits : List Char)
  | decimal (whole : List Char) (fraction : Option (List Char)) (exponent : Option Exponent)
deriving Repr, DecidableEq

/-- **A number as it is written.** -/
structure Numeral where
  sign : Option Sign
  spelling : Spelling
deriving Repr, DecidableEq

namespace Exponent

def chars (e : Exponent) : List Char := e.letter :: (Sign.chars e.sign ++ e.digits)

/-- Its characters are where they belong. -/
structure WellFormed (e : Exponent) : Prop where
  letter : e.letter = 'e' ∨ e.letter = 'E'
  digits : ∀ c ∈ e.digits, isGrouped c

/-- An exponent at the end of a number, if there is one. -/
def ofChars? : List Char → Option (Option Exponent)
  | [] => some none
  | letter :: cs =>
    let e : Exponent := ⟨letter, (Sign.cut cs).1, (Sign.cut cs).2⟩
    if (letter = 'e' || letter = 'E') && e.digits.all isGrouped then some (some e) else none

def power? : Option Exponent → Option Int
  | none => some 0
  | some e => (digits? 10 (ungrouped e.digits)).map fun n : Nat => Sign.apply e.sign (n : Int)

end Exponent

namespace Spelling

def chars : Spelling → List Char
  | announced letter digits => '0' :: letter :: digits
  | decimal whole fraction exponent =>
    whole ++ ((fraction.map ('.' :: ·)).getD [] ++ (exponent.map Exponent.chars).getD [])

/-- Its characters are where they belong. -/
def WellFormed : Spelling → Prop
  | announced letter digits => letter ∈ baseLetters ∧ ∀ c ∈ digits, isBased c
  | decimal whole fraction exponent =>
    (∀ c ∈ whole, isGrouped c) ∧ (∀ f ∈ fraction, ∀ c ∈ f, isGrouped c) ∧ ∀ e ∈ exponent, e.WellFormed

def ofDecimal? (cs : List Char) : Option Spelling :=
  let whole := cs.takeWhile isGrouped
  match cs.dropWhile isGrouped with
  | '.' :: more =>
    (Exponent.ofChars? (more.dropWhile isGrouped)).map (.decimal whole (some (more.takeWhile isGrouped)))
  | rest => (Exponent.ofChars? rest).map (.decimal whole none)

/-- A number without a sign. -/
def ofChars? : List Char → Option Spelling
  | '0' :: letter :: digits =>
    if letter ∈ baseLetters then if digits.all isBased then some (.announced letter digits) else none
    else ofDecimal? ('0' :: letter :: digits)
  | cs => ofDecimal? cs

end Spelling

namespace Numeral

def chars (n : Numeral) : List Char := Sign.chars n.sign ++ n.spelling.chars

/-- **The numeral that a text is.** -/
def ofChars? (cs : List Char) : Option Numeral := (Spelling.ofChars? (Sign.cut cs).2).map (⟨(Sign.cut cs).1, ·⟩)

end Numeral

/-! ### Reading and writing -/

namespace Sign

/-- What no sign is in front of. -/
def Unsigned (cs : List Char) : Prop := cs.head? ≠ some '+' ∧ cs.head? ≠ some '-'

variable {cs : List Char}

theorem cut_of_unsigned (unsigned : Unsigned cs) : cut cs = (none, cs) := by
  unfold cut
  split
  · exact absurd rfl unsigned.1
  · exact absurd rfl unsigned.2
  · rfl

theorem cut_chars (sign : Option Sign) (unsigned : Unsigned cs) : cut (chars sign ++ cs) = (sign, cs) := by
  cases sign with
  | none => exact cut_of_unsigned unsigned
  | some s => cases s <;> rfl

theorem chars_cut (cs : List Char) : chars (cut cs).1 ++ (cut cs).2 = cs := by
  unfold cut
  split <;> rfl

theorem mem_chars {sign : Option Sign} {c : Char} (mem : c ∈ chars sign) : c = '+' ∨ c = '-' := by
  rcases sign with _ | _ | _ <;> simp_all [chars]

theorem cutSign_eq (cs : List Char) : cutSign cs = (decide ((cut cs).1 = some minus), (cut cs).2) := by
  unfold cutSign
  split
  · rfl
  · rfl
  · next minus plus =>
    have unsigned : Unsigned cs := by
      cases cs with
      | nil => exact ⟨nofun, nofun⟩
      | cons c cs => exact ⟨fun same => plus cs (Option.some.inj same ▸ rfl), fun same => minus cs (Option.some.inj same ▸ rfl)⟩
    rw [cut_of_unsigned unsigned]
    rfl

theorem unsigned_of_head {p : Char → Bool} (plus : p '+' = false) (minus : p '-' = false) (head : ∀ c ∈ cs.head?, p c) :
    Unsigned cs := by
  constructor
  · intro isPlus
    cases plus.symm.trans (head '+' isPlus)
  · intro isMinus
    cases minus.symm.trans (head '-' isMinus)

end Sign

namespace Exponent

variable {e : Exponent} {cs : List Char}

theorem ofChars?_chars (formed : e.WellFormed) : ofChars? e.chars = some (some e) := by
  have unsigned := Sign.unsigned_of_head rfl rfl fun c mem => formed.digits c (mem_of_mem_head? mem)
  rw [chars, ofChars?, Sign.cut_chars e.sign unsigned]
  simpa using ⟨formed.letter, formed.digits⟩

theorem of_ofChars? {exponent : Option Exponent} (read : ofChars? cs = some exponent) :
    (exponent.map chars).getD [] = cs ∧ ∀ e ∈ exponent, e.WellFormed := by
  cases cs with
  | nil =>
    cases read
    exact ⟨rfl, nofun⟩
  | cons c cs =>
    rw [ofChars?] at read
    split at read
    · next fits =>
      cases read
      simp only [Bool.and_eq_true, Bool.or_eq_true, decide_eq_true_eq, all_eq_true] at fits
      refine ⟨congrArg (c :: ·) (Sign.chars_cut cs), fun e same => ?_⟩
      cases same
      exact ⟨fits.1, fits.2⟩
    · cases read

end Exponent

namespace Spelling

variable {cs : List Char} {s : Spelling}

variable {exponent : Option Exponent} {fraction : Option (List Char)} {whole : List Char}

theorem not_isGrouped_of_mem_exponent (formed : ∀ e ∈ exponent, e.WellFormed) :
    ∀ c ∈ ((exponent.map Exponent.chars).getD []).head?, isGrouped c = false := by
  cases exponent with
  | none => exact nofun
  | some e =>
    rintro c ⟨⟩
    rcases (formed e rfl).letter with same | same <;> rw [same] <;> rfl

section

variable (formed : (decimal whole fraction exponent).WellFormed)
include formed

theorem ofDecimal?_chars : ofDecimal? (decimal whole fraction exponent).chars = some (decimal whole fraction exponent) := by
  obtain ⟨digits, more, power⟩ := formed
  have readPower : Exponent.ofChars? ((exponent.map Exponent.chars).getD []) = some exponent := by
    cases exponent with
    | none => rfl
    | some e => exact Exponent.ofChars?_chars (power e rfl)
  have ends := not_isGrouped_of_mem_exponent power
  cases fraction with
  | none =>
    obtain ⟨taken, dropped⟩ := span_append digits ends
    rw [chars, ofDecimal?]
    simp only [Option.map_none, Option.getD_none, nil_append]
    rw [taken, dropped]
    split
    · next point =>
      -- An exponent does not begin with a point.
      cases exponent with
      | none => cases point
      | some e =>
        have isPoint : e.letter = '.' := (cons.inj point).1
        rcases (power e rfl).letter with same | same <;> cases same.symm.trans isPoint
    · rw [readPower]
      rfl
  | some f =>
    have point : ∀ c ∈ ('.' :: (f ++ (exponent.map Exponent.chars).getD [])).head?, isGrouped c = false := by
      rintro c ⟨⟩
      rfl
    obtain ⟨taken, dropped⟩ := span_append digits point
    obtain ⟨taken', dropped'⟩ := span_append (more f rfl) ends
    rw [chars, ofDecimal?]
    simp only [Option.map_some, Option.getD_some, cons_append]
    rw [taken, dropped]
    simp only [taken', dropped', readPower, Option.map_some]

omit formed in
theorem of_ofDecimal? (read : ofDecimal? cs = some s) :
    ∃ whole fraction exponent, s = decimal whole fraction exponent ∧ s.chars = cs ∧ s.WellFormed := by
  have digits (cs : List Char) : ∀ c ∈ cs.takeWhile isGrouped, isGrouped c := fun _ mem => mem_takeWhile_imp mem
  have whole := takeWhile_append_dropWhile (p := isGrouped) (l := cs)
  rw [ofDecimal?] at read
  split at read
  · next more point =>
    obtain ⟨exponent, power, rfl⟩ := Option.map_eq_some_iff.mp read
    obtain ⟨behind, formed⟩ := Exponent.of_ofChars? power
    refine ⟨_, _, _, rfl, ?_, digits cs, fun f same => Option.some.inj same ▸ digits more, formed⟩
    rw [point, ← takeWhile_append_dropWhile (p := isGrouped) (l := more), ← behind] at whole
    exact whole
  · obtain ⟨exponent, power, rfl⟩ := Option.map_eq_some_iff.mp read
    obtain ⟨behind, formed⟩ := Exponent.of_ofChars? power
    refine ⟨_, _, _, rfl, ?_, digits cs, nofun, formed⟩
    rw [← behind] at whole
    exact whole

/-- The characters of a decimal number. -/
theorem mem_decimal {c : Char} (mem : c ∈ (decimal whole fraction exponent).chars) :
    isGrouped c ∨ c ∈ ['.', 'e', 'E', '+', '-'] := by
  obtain ⟨digits, more, power⟩ := formed
  rw [chars, mem_append, mem_append] at mem
  rcases mem with mem | mem | mem
  · exact .inl (digits c mem)
  · cases fraction with
    | none => cases mem
    | some f =>
      rcases mem_cons.mp mem with rfl | mem
      · exact .inr (by simp)
      · exact .inl (more f rfl c mem)
  · cases exponent with
    | none => cases mem
    | some e =>
      obtain ⟨letter, digits⟩ := power e rfl
      rcases mem_cons.mp mem with rfl | mem
      · exact .inr (by rcases letter with same | same <;> simp [same])
      · rcases mem_append.mp mem with mem | mem
        · exact .inr (by rcases Sign.mem_chars mem with rfl | rfl <;> simp)
        · exact .inl (digits c mem)

theorem not_mem_baseLetters {c : Char} (mem : c ∈ (decimal whole fraction exponent).chars) : c ∉ baseLetters := by
  intro isLetter
  have other : ∀ c ∈ baseLetters, ¬ (isGrouped c ∨ c ∈ ['.', 'e', 'E', '+', '-']) := forall_mem_of_all rfl
  exact other c isLetter (mem_decimal formed mem)

end

theorem ofChars?_eq_some_iff : ofChars? cs = some s ↔ s.chars = cs ∧ s.WellFormed := by
  constructor
  · intro read
    unfold ofChars? at read
    split at read
    · split at read
      · next isLetter =>
        split at read
        · next digits =>
          cases read
          exact ⟨rfl, isLetter, all_eq_true.mp digits⟩
        · cases read
      · obtain ⟨_, _, _, -, chars, formed⟩ := of_ofDecimal? read
        exact ⟨chars, formed⟩
    · obtain ⟨_, _, _, -, chars, formed⟩ := of_ofDecimal? read
      exact ⟨chars, formed⟩
  · rintro ⟨rfl, formed⟩
    cases s with
    | announced letter digits =>
      rw [chars, ofChars?, if_pos formed.1, if_pos (all_eq_true.mpr formed.2)]
    | decimal whole fraction exponent =>
      have others {c : Char} := not_mem_baseLetters (c := c) formed
      have read := ofDecimal?_chars formed
      unfold ofChars?
      split
      · next letter digits same =>
        rw [same] at others read
        rw [if_neg (others (by simp)), read]
      · exact read

theorem unsigned (formed : s.WellFormed) : Sign.Unsigned s.chars := by
  cases s with
  | announced letter digits => exact ⟨by simp [chars], by simp [chars]⟩
  | decimal whole fraction exponent =>
    obtain ⟨digits, -, power⟩ := formed
    cases whole with
    | cons c whole =>
      refine Sign.unsigned_of_head rfl rfl fun d head => digits d ?_
      cases Option.some.inj head
      exact mem_cons_self
    | nil =>
      cases fraction with
      | some f => exact ⟨by simp [chars], by simp [chars]⟩
      | none =>
        cases exponent with
        | none => exact ⟨nofun, nofun⟩
        | some e =>
          rcases (power e rfl).letter with same | same <;>
            exact ⟨by simp [chars, Exponent.chars, same], by simp [chars, Exponent.chars, same]⟩

end Spelling

namespace Numeral

/-- **A text is a numeral exactly if it is written like that.** -/
theorem ofChars?_eq_some_iff {cs : List Char} {n : Numeral} : ofChars? cs = some n ↔ n.chars = cs ∧ n.spelling.WellFormed := by
  constructor
  · intro read
    obtain ⟨s, spelled, rfl⟩ := Option.map_eq_some_iff.mp read
    obtain ⟨same, formed⟩ := Spelling.ofChars?_eq_some_iff.mp spelled
    refine ⟨?_, formed⟩
    rw [chars, same, Sign.chars_cut]
  · rintro ⟨rfl, formed⟩
    rw [ofChars?, chars, Sign.cut_chars n.sign (Spelling.unsigned formed), Spelling.ofChars?_eq_some_iff.mpr ⟨rfl, formed⟩]
    rfl

theorem mem_decimal {sign : Option Sign} {whole : List Char} {fraction : Option (List Char)} {exponent : Option Exponent}
    {c : Char} (formed : (Spelling.decimal whole fraction exponent).WellFormed)
    (mem : c ∈ chars ⟨sign, .decimal whole fraction exponent⟩) : isGrouped c ∨ c ∈ ['.', 'e', 'E', '+', '-'] := by
  rcases mem_append.mp mem with mem | mem
  · exact .inr (by rcases Sign.mem_chars mem with rfl | rfl <;> simp)
  · exact Spelling.mem_decimal formed mem

end Numeral

/-! ### Numerals without separators -/

theorem underscore_notMem_ungrouped (cs : List Char) : '_' ∉ ungrouped cs := by simp [ungrouped]

theorem ungrouped_append (cs ds : List Char) : ungrouped (cs ++ ds) = ungrouped cs ++ ungrouped ds := filter_append ..

@[simp] theorem ungrouped_nil : ungrouped [] = [] := rfl

variable {c : Char} {cs : List Char}

theorem ungrouped_cons (other : c ≠ '_') (cs : List Char) : ungrouped (c :: cs) = c :: ungrouped cs := by
  simp [ungrouped, other]

theorem ungrouped_sign (sign : Option Sign) : ungrouped (Sign.chars sign) = Sign.chars sign := by
  rcases sign with _ | _ | _ <;> rfl

theorem mem_of_mem_ungrouped (mem : c ∈ ungrouped cs) : c ∈ cs := (mem_filter.mp mem).1

theorem mem_ungrouped (other : c ≠ '_') (mem : c ∈ cs) : c ∈ ungrouped cs :=
  mem_filter.mpr ⟨mem, by simpa using other⟩

/-- A numeral without its separators. -/
def Spelling.plain : Spelling → Spelling
  | announced letter digits => announced letter (ungrouped digits)
  | decimal whole fraction exponent =>
    decimal (ungrouped whole) (fraction.map ungrouped) (exponent.map fun e => { e with digits := ungrouped e.digits })

namespace Spelling

variable {s : Spelling}

theorem WellFormed.plain (formed : s.WellFormed) : s.plain.WellFormed := by
  cases s with
  | announced letter digits => exact ⟨formed.1, fun c mem => formed.2 c (mem_of_mem_ungrouped mem)⟩
  | decimal whole fraction exponent =>
    obtain ⟨digits, more, power⟩ := formed
    refine ⟨fun c mem => digits c (mem_of_mem_ungrouped mem), ?_, ?_⟩
    · intro f same c mem
      obtain ⟨f, rfl, rfl⟩ := Option.map_eq_some_iff.mp same
      exact more f rfl c (mem_of_mem_ungrouped mem)
    · intro e same
      obtain ⟨e, rfl, rfl⟩ := Option.map_eq_some_iff.mp same
      exact ⟨(power e rfl).letter, fun c mem => (power e rfl).digits c (mem_of_mem_ungrouped mem)⟩

theorem chars_plain (formed : s.WellFormed) : s.plain.chars = ungrouped s.chars := by
  cases s with
  | announced letter digits =>
    have isLetter : letter ≠ '_' := by
      rintro rfl
      exact absurd formed.1 (by decide)
    rw [chars, ungrouped_cons (by decide), ungrouped_cons isLetter]
    rfl
  | decimal whole fraction exponent =>
    have fractions : ((fraction.map ungrouped).map ('.' :: ·)).getD [] = ungrouped ((fraction.map ('.' :: ·)).getD []) := by
      cases fraction with
      | none => rfl
      | some f => exact (ungrouped_cons (by decide) f).symm
    have exponents : ((exponent.map fun e => { e with digits := ungrouped e.digits }).map Exponent.chars).getD [] =
        ungrouped ((exponent.map Exponent.chars).getD []) := by
      cases exponent with
      | none => rfl
      | some e =>
        have isLetter : e.letter ≠ '_' := by
          rcases (formed.2.2 e rfl).letter with same | same <;> simp [same]
        simp [Exponent.chars, ungrouped_cons isLetter, ungrouped_append, ungrouped_sign]
    rw [plain, chars, chars, ungrouped_append, ungrouped_append, fractions, exponents]

end Spelling

/-- The sign of a numeral, and what follows it without separators. -/
theorem Numeral.cut_ungrouped {n : Numeral} (formed : n.spelling.WellFormed) :
    Sign.cut (ungrouped n.chars) = (n.sign, n.spelling.plain.chars) := by
  rw [Numeral.chars, ungrouped_append, ungrouped_sign, ← Spelling.chars_plain formed]
  exact Sign.cut_chars n.sign (Spelling.unsigned formed.plain)

/-! ## What targets make of them -/

/-- Where separators may stand in a group of digits. -/
structure Grouping where
  separates : Bool := true
  /-- One may follow another. -/
  repeats : Bool := true
  /-- One may stand in front of all digits. -/
  leads : Bool := false
  /-- One may stand behind all digits. -/
  trails : Bool := false

def Grouping.admits (g : Grouping) (cs : List Char) : Bool :=
  cs.any (· ≠ '_') && (g.separates || !cs.contains '_') && (g.repeats || !occursChars ['_', '_'] cs) &&
    (g.leads || cs.head? ≠ some '_') && (g.trails || cs.getLast? ≠ some '_')

/-- What zeros in front of an integer do. -/
inductive LeadingZero where
  /-- They make it an octal number. -/
  | octal
  | nothing
  | refused
deriving Repr, DecidableEq

/-- The rules for numbers in a target. -/
structure NumeralRules where
  /-- A number may have a plus in front. -/
  plus : Bool := true
  /-- The letters that announce a base. -/
  letters : List Char
  leadingZero : LeadingZero
  /-- Digits before and behind the point. -/
  group : Grouping
  /-- Digits behind the letter of a base. -/
  announced : Grouping := group
  /-- Digits of an exponent. -/
  power : Grouping := group
  /-- A number may begin with its point. -/
  leadingPoint : Bool := true
  /-- A number may end with its point. -/
  trailingPoint : Bool := true
  /-- An exponent may follow the point. -/
  pointBeforeExponent : Bool := true
  /-- There are floating-point numbers only. -/
  onlyFloating : Bool := false

/-- Zeros stand in front of other digits. -/
def hasLeadingZero (whole : List Char) : Bool := (ungrouped whole).head? = some '0' && 1 < (ungrouped whole).length

namespace Target

/-- **How a target spells numbers.** -/
def numerals : Target → NumeralRules
  | cpp => { letters := ['x', 'X', 'b', 'B'], leadingZero := .octal, group := { separates := false } }
  | csharp => {
      letters := ['x', 'X', 'b', 'B'], leadingZero := .nothing, group := {}, announced := { leads := true }
      trailingPoint := false, pointBeforeExponent := false }
  | java => { letters := ['x', 'X', 'b', 'B'], leadingZero := .octal, group := {} }
  | rust => {
      plus := false, letters := ['x', 'o', 'b'], leadingZero := .nothing, group := { trails := true }
      announced := { leads := true, trails := true }, power := { leads := true, trails := true }
      leadingPoint := false, pointBeforeExponent := false }
  | typescript => {
      letters := baseLetters, leadingZero := .refused, group := { repeats := false }, onlyFloating := true }

def accepts (t : Target) (n : Numeral) : Bool :=
  (t.numerals.plus || n.sign ≠ some .plus) &&
    match n.spelling with
    | .announced letter digits => t.numerals.letters.contains letter && t.numerals.announced.admits digits
    | .decimal whole fraction exponent =>
      (if whole = [] then t.numerals.leadingPoint && fraction.any (· ≠ []) else t.numerals.group.admits whole) &&
      (match fraction with
        | none => true
        | some [] => if exponent.isSome then t.numerals.pointBeforeExponent else t.numerals.trailingPoint
        | some digits => t.numerals.group.admits digits) &&
      exponent.all (t.numerals.power.admits ·.digits) &&
      (t.numerals.leadingZero ≠ .refused || !hasLeadingZero whole)

end Target

def Yaml.Decimal.value (d : Yaml.Decimal) : ℚ :=
  let magnitude : ℚ := d.digits * 10 ^ d.exponent
  if d.negative then -magnitude else magnitude

def Numeral.decimal? (n : Numeral) : Option Yaml.Decimal :=
  match n.spelling with
  | .announced .. => none
  | .decimal whole fraction exponent => do
    let digits ← digits? 10 (ungrouped (whole ++ fraction.getD []))
    let power ← Exponent.power? exponent
    pure ⟨n.sign = some .minus, digits, power - (ungrouped (fraction.getD [])).length⟩

namespace Target

def readsOctal (t : Target) : Spelling → Bool
  | .decimal whole none none => t.numerals.leadingZero = .octal && hasLeadingZero whole
  | _ => false

def value? (t : Target) (n : Numeral) : Option ℚ :=
  match n.spelling with
  | .announced letter digits => (digits? (baseOf letter) (ungrouped digits)).map fun m : Nat => Sign.apply n.sign (m : ℚ)
  | .decimal whole _ _ =>
    if t.readsOctal n.spelling then (digits? 8 (ungrouped whole)).map fun m : Nat => Sign.apply n.sign (m : ℚ)
    else n.decimal?.map Yaml.Decimal.value

def isFloating (t : Target) (n : Numeral) : Bool :=
  t.numerals.onlyFloating ||
    match n.spelling with
    | .announced .. => false
    | .decimal _ fraction exponent => fraction.isSome || exponent.isSome

/-- **The number that a text denotes in a target**, and whether it is a floating-point number. -/
def number? (t : Target) (text : String) : Option (ℚ × Bool) := do
  let n ← Numeral.ofChars? text.toList
  if t.accepts n then (t.value? n).map (·, t.isFloating n) else none

/-- A text is a literal of a number, and a floating-point literal if it has to be. -/
def denotes (t : Target) (text : String) (number : ℚ) (asFloating : Bool) : Bool :=
  (t.number? text).any fun (x, isFloating) => x = number && (isFloating || !asFloating)

end Target

end Polyglot
