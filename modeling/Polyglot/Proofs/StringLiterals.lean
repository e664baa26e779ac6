import Polyglot.Target.Literal
import Mathlib.Algebra.Group.Nat.Defs
import Mathlib.Data.List.TakeDrop

/-!
# Which texts survive as literals

All targets get a text in the same quotes, with the same escapes, but they read escapes in different ways: some lack a few,
and in C++ and C# `\x` goes on as long as digits follow, so that the escape of a control character takes a digit of the text
behind it. These are the only losses: the literal of a text denotes the text exactly when the target reads back every escape in
it and none runs on.
-/

namespace Polyglot

open Text List

/-! ## How targets read literals -/

def isHexDigit (c : Char) : Bool := ('0' ≤ c && c ≤ '9') || ('a' ≤ c && c ≤ 'f') || ('A' ≤ c && c ≤ 'F')

def hexValue (c : Char) : Nat :=
  if c ≤ '9' then c.toNat - 48 else if c ≤ 'F' then c.toNat - 55 else c.toNat - 87

def hexNumber (digits : List Char) : Nat := digits.foldl (fun n c => 16 * n + hexValue c) 0

namespace Target

/-- The units that a character is stored in: bytes of UTF-8, or units of UTF-16. -/
def units : Target → Char → List Nat
  | cpp, c | rust, c => (String.utf8EncodeChar c).map (·.toNat)
  | _, c =>
    if c.toNat < 0x10000 then [c.toNat]
    else [0xD800 + (c.toNat - 0x10000) / 0x400, 0xDC00 + (c.toNat - 0x10000) % 0x400]

def unit? (bound n : Nat) : Option (List Nat) := if n < bound then some [n] else none

def point? (t : Target) (n : Nat) : Option (List Nat) :=
  if n.isValidChar then some (t.units (Char.ofNat n)) else none

/-- A number of at least `low` and at most `high` hexadecimal digits, and what is behind it. -/
def numbered (low high : Nat) (value : Nat → Option (List Nat)) (cs : List Char) : Option (List Nat × List Char) :=
  let digits := (cs.takeWhile isHexDigit).take high
  if digits.length < low then none
  else (value (hexNumber digits)).map fun us => (us, cs.drop digits.length)

def braced (value : Nat → Option (List Nat)) : List Char → Option (List Nat × List Char)
  | '\x7b' :: cs =>
    match numbered 1 6 value cs with
    | some (us, '\x7d' :: rest) => some (us, rest)
    | _ => none
  | _ => none

/-- A number of one to three octal digits, which is a byte. -/
def octal (cs : List Char) : Option (List Nat × List Char) :=
  let digits := (cs.takeWhile fun c => '0' ≤ c && c ≤ '7').take (if cs.head?.any (· ≤ '3') then 3 else 2)
  if digits.isEmpty then none
  else some ([digits.foldl (fun n c => 8 * n + (c.toNat - 48)) 0], cs.drop digits.length)

/-- The escapes of one letter, with the units that they stand for. -/
def letters : Target → List (Char × Nat)
  | cpp => [('\'', 39), ('"', 34), ('?', 63), ('\\', 92), ('a', 7), ('b', 8), ('f', 12), ('n', 10), ('r', 13), ('t', 9),
      ('v', 11)]
  | csharp => [('\'', 39), ('"', 34), ('\\', 92), ('0', 0), ('a', 7), ('b', 8), ('f', 12), ('n', 10), ('r', 13),
      ('t', 9), ('v', 11)]
  | java => [('\'', 39), ('"', 34), ('\\', 92), ('b', 8), ('f', 12), ('n', 10), ('r', 13), ('t', 9)]
  | rust => [('\'', 39), ('"', 34), ('\\', 92), ('0', 0), ('n', 10), ('r', 13), ('t', 9)]
  | typescript => [('0', 0), ('b', 8), ('f', 12), ('n', 10), ('r', 13), ('t', 9), ('v', 11)]

/-- The other escapes: numbers, and in TypeScript characters that stand for themselves. -/
def otherEscape? (t : Target) (c : Char) (cs : List Char) : Option (List Nat × List Char) :=
  match t with
  | cpp =>
    if c = 'x' then numbered 1 cs.length (unit? 0x100) cs
    else if c = 'u' then numbered 4 4 cpp.point? cs
    else if c = 'U' then numbered 8 8 cpp.point? cs
    else none
  | csharp =>
    if c = 'x' then numbered 1 4 (unit? 0x10000) cs
    else if c = 'u' then numbered 4 4 (unit? 0x10000) cs
    else if c = 'U' then numbered 8 8 csharp.point? cs
    else none
  | java => if c = 'u' then numbered 4 4 (unit? 0x10000) cs else octal (c :: cs)
  | rust =>
    if c = 'x' then numbered 2 2 (unit? 0x80) cs
    else if c = 'u' then braced rust.point? cs
    else none
  | typescript =>
    if c = 'x' then numbered 2 2 (unit? 0x100) cs
    else if c = 'u' then
      if cs.head? = some '\x7b' then braced typescript.point? cs else numbered 4 4 (unit? 0x10000) cs
    else some (typescript.units c, cs)

/-- **An escape**, behind its backslash: the units that it stands for, and what follows. -/
def escape? (t : Target) : List Char → Option (List Nat × List Char)
  | [] => none
  | c :: cs =>
    match t.letters.lookup c with
    | some n => some ([n], cs)
    | none => t.otherEscape? c cs

variable {rest cs : List Char} {us : List Nat}

variable {t : Target} {value : Nat → Option (List Nat)}

theorem length_of_numbered {low high : Nat} (h : numbered low high value cs = some (us, rest)) : rest.length ≤ cs.length := by
  unfold numbered at h
  dsimp only at h
  split at h
  · cases h
  · obtain ⟨_, -, same⟩ := Option.map_eq_some_iff.mp h
    cases same
    rw [length_drop]
    exact Nat.sub_le _ _

theorem length_of_braced (h : braced value cs = some (us, rest)) : rest.length ≤ cs.length := by
  unfold braced at h
  split at h
  · split at h
    · next found =>
      cases h
      have length := length_of_numbered found
      simp only [length_cons] at length ⊢
      omega
    · cases h
  · cases h

theorem length_of_octal {c : Char} (h : octal (c :: cs) = some (us, rest)) : rest.length ≤ cs.length := by
  unfold octal at h
  extract_lets digits at h
  split at h
  · cases h
  · next some =>
    cases h
    rw [List.isEmpty_iff, ← length_eq_zero_iff] at some
    rw [length_drop, length_cons]
    omega

theorem length_of_otherEscape? {c : Char} (h : t.otherEscape? c cs = some (us, rest)) : rest.length ≤ cs.length := by
  unfold otherEscape? at h
  split at h
  all_goals repeat' split at h
  all_goals first
    | exact length_of_numbered h
    | exact length_of_braced h
    | exact length_of_octal h
    | cases h
  exact Nat.le_refl _

theorem length_of_escape? (h : t.escape? cs = some (us, rest)) : rest.length < cs.length := by
  cases cs with
  | nil => cases h
  | cons c cs =>
    rw [escape?] at h
    split at h
    · cases h
      exact Nat.lt_succ_self _
    · exact Nat.lt_succ_of_le (length_of_otherEscape? h)

/-- The characters that cannot stand in a literal as they are, besides quotes and backslashes. -/
def breaks : Target → List Char
  | cpp => ['\n']
  | csharp => ['\n', '\r', '\u0085', '\u2028', '\u2029']
  | java | typescript => ['\n', '\r']
  | rust => ['\r']

/-- **A text between quotes**, behind the first one: its units up to the next quote, and what is behind that. -/
def readText (t : Target) : List Char → Option (List Nat × List Char)
  | [] => none
  | c :: cs =>
    if c = '"' then some ([], cs)
    else if c = '\\' then
      match _ : t.escape? cs with
      | none => none
      | some (us, rest) => (readText t rest).map fun (more, behind) => (us ++ more, behind)
    else if t.breaks.contains c then none
    else (readText t cs).map fun (more, behind) => (t.units c ++ more, behind)
termination_by cs => cs.length
decreasing_by
  · exact Nat.lt_succ_of_lt (length_of_escape? ‹_›)
  · exact Nat.lt_succ_self _

/-- What stands around the text of a literal: Rust makes an owned text of it. -/
def around : Target → String × String
  | rust => ("String::from(\"", ")")
  | _ => ("\"", "")

/-- **The units that a literal denotes**; nothing when it is no literal. -/
def denoted? (t : Target) (literal : String) : Option (List Nat) :=
  match (afterChars? t.around.1.toList literal.toList).bind t.readText with
  | some (us, behind) => if behind = t.around.2.toList then some us else none
  | none => none

/-! ## Which texts survive -/

def readsEscape (t : Target) (n : Nat) : Bool :=
  match t with
  | cpp | csharp => true
  | java => [8, 9, 10, 12, 13].contains n || (0x80 ≤ n && n < 0x10000)
  | rust => n < 0x80 && !contains [7, 8, 11, 12] n
  | typescript => n < 0x10000 && n ≠ 7

/-- The digits that `\x` still takes behind its first two: all of them in C++, two in C#. -/
def further : Target → List Char → List Char
  | cpp, digits => digits
  | csharp, digits => digits.take 2
  | _, _ => []

def taken (t : Target) (c : Char) (cs : List Char) : Nat :=
  if !Text.isPrintable c && c.toNat < 0x80 && (letterEscape? c).isNone then
    (t.further (cs.takeWhile isHexDigit)).length
  else 0

/-- **Does a text survive in the target?** Every character must be printable or have an escape that the target reads
back, and the escape must not take digits of the text behind it. -/
def survives (t : Target) : List Char → Bool
  | [] => true
  | c :: cs => (isPrintable c || t.readsEscape c.toNat) && t.taken c cs = 0 && t.survives cs

end Target

/-! ## How characters are spelled -/

namespace Text

theorem isHexDigit_of_mem_hex {w n : Nat} : ∀ c ∈ hex w n, isHexDigit c := by
  induction w generalizing n with
  | zero => nofun
  | succ w ih =>
    intro c hc
    rw [hex, mem_append, mem_singleton] at hc
    obtain hc | rfl := hc
    · exact ih c hc
    · have digits : ∀ d < 16, isHexDigit (hexDigit d) := by decide
      exact digits _ (Nat.mod_lt _ (by decide))

theorem length_hex (w n : Nat) : (hex w n).length = w := by
  induction w generalizing n with
  | zero => rfl
  | succ w ih => rw [hex, length_append, ih]; rfl

theorem hexNumber_hex {w n : Nat} (small : n < 16 ^ w) : hexNumber (hex w n) = n := by
  induction w generalizing n with
  | zero => exact (Nat.lt_one_iff.mp small).symm
  | succ w ih =>
    have value : ∀ d < 16, hexValue (hexDigit d) = d := by decide
    have upper : hexNumber (hex w (n / 16)) = n / 16 := ih (by rw [Nat.pow_succ] at small; omega)
    unfold hexNumber at upper ⊢
    rw [hex, foldl_append, foldl_cons, foldl_nil, value _ (Nat.mod_lt _ (by decide))]
    omega

/-- The ways in which a character is spelled between double quotes. -/
inductive Spelling (c : Char) : List Char → Prop
  | mark (isMark : c = '"' ∨ c = '\\') : Spelling c ['\\', c]
  | plain (printable : isPrintable c = true) (quote : c ≠ '"') (slash : c ≠ '\\') : Spelling c [c]
  | letter {l : Char} (hidden : isPrintable c = false) (found : letterEscape? c = some l) : Spelling c ['\\', l]
  | control (hidden : isPrintable c = false) (noLetter : letterEscape? c = none) (ascii : c.toNat < 0x80) :
      Spelling c ('\\' :: 'x' :: hex 2 c.toNat)
  | short (hidden : isPrintable c = false) (ascii : 0x80 ≤ c.toNat) (basic : c.toNat < 0x10000) :
      Spelling c ('\\' :: 'u' :: hex 4 c.toNat)
  | long (hidden : isPrintable c = false) (high : 0x10000 ≤ c.toNat) : Spelling c ('\\' :: 'U' :: hex 8 c.toNat)

theorem spelling (c : Char) : Spelling c (quoteChar '"' c) := by
  unfold quoteChar
  split
  · next isMark =>
    rw [Bool.or_eq_true, decide_eq_true_eq, decide_eq_true_eq] at isMark
    exact .mark isMark
  · next isMark =>
    rw [Bool.or_eq_true, decide_eq_true_eq, decide_eq_true_eq, not_or] at isMark
    split
    · next printable => exact .plain printable isMark.1 isMark.2
    · next hidden =>
      rw [Bool.not_eq_true] at hidden
      split
      · next found => exact .letter hidden found
      · next noLetter =>
        split
        · next ascii => exact .control hidden noLetter ascii
        · next ascii =>
          split
          · next basic => exact .short hidden (Nat.le_of_not_lt ascii) basic
          · next high => exact .long hidden (Nat.le_of_not_lt high)

/-- The letter escapes, with the code points that they stand for. -/
def letterEscapes : List (Nat × Char) := [(7, 'a'), (8, 'b'), (12, 'f'), (10, 'n'), (13, 'r'), (9, 't'), (11, 'v')]

variable {c : Char}

theorem mem_letterEscapes {l : Char} (h : letterEscape? c = some l) : (c.toNat, l) ∈ letterEscapes := by
  unfold letterEscape? at h
  split at h
  all_goals
    cases h
    all_goals
      next code =>
      rw [code]
      decide

theorem range_of_letterEscape?_eq_none (h : letterEscape? c = none) : c.toNat < 7 ∨ 13 < c.toNat := by
  unfold letterEscape? at h
  split at h
  case h_8 => grind
  all_goals cases h

theorem toNat_of_isHexDigit (digit : isHexDigit c) :
    48 ≤ c.toNat ∧ c.toNat ≤ 57 ∨ 97 ≤ c.toNat ∧ c.toNat ≤ 102 ∨ 65 ≤ c.toNat ∧ c.toNat ≤ 70 := by
  simp only [isHexDigit, Bool.or_eq_true, Bool.and_eq_true, decide_eq_true_eq] at digit
  exact or_assoc.mp digit

theorem quoteChar_of_isHexDigit (digit : isHexDigit c) : quoteChar '"' c = [c] := by
  have range := toNat_of_isHexDigit digit
  have printable : isPrintable c := by
    unfold isPrintable
    rw [if_pos (by omega), Bool.and_eq_true, decide_eq_true_eq, decide_eq_true_eq]
    omega
  have isMark : ¬ (c = '"' || c = '\\') := by
    rw [Bool.or_eq_true, decide_eq_true_eq, decide_eq_true_eq]
    rintro (rfl | rfl) <;> revert range <;> decide
  rw [quoteChar, if_neg isMark, if_pos printable]

theorem quoteChar_of_not_isHexDigit (other : isHexDigit c = false) :
    ∃ d ds, quoteChar '"' c = d :: ds ∧ isHexDigit d = false := by
  have ways := spelling c
  generalize quoteChar '"' c = text at ways
  cases ways with
  | plain => exact ⟨c, [], rfl, other⟩
  | mark | letter | control | short | long => exact ⟨'\\', _, rfl, rfl⟩

theorem quoteChars_cons (c : Char) (cs : List Char) : quoteChars (c :: cs) = quoteChar '"' c ++ quoteChars cs :=
  flatMap_cons

/-- Only a digit is spelled by a text that starts with a digit. -/
theorem takeWhile_quoteChars (cs rest : List Char) :
    (quoteChars cs ++ '"' :: rest).takeWhile isHexDigit = cs.takeWhile isHexDigit := by
  induction cs with
  | nil => rfl
  | cons c cs ih =>
    rw [quoteChars_cons, append_assoc]
    cases digit : isHexDigit c with
    | true =>
      rw [quoteChar_of_isHexDigit digit, singleton_append, takeWhile_cons_of_pos digit, takeWhile_cons_of_pos digit, ih]
    | false =>
      obtain ⟨d, ds, spelled, other⟩ := quoteChar_of_not_isHexDigit digit
      rw [spelled, cons_append, takeWhile_cons_of_neg (by simp [other]), takeWhile_cons_of_neg (by simp [digit])]

theorem drop_quoteChars {n : Nat} {cs : List Char} (rest : List Char) (digits : n ≤ (cs.takeWhile isHexDigit).length) :
    (quoteChars cs ++ '"' :: rest).drop n = quoteChars (cs.drop n) ++ '"' :: rest := by
  induction cs generalizing n with
  | nil =>
    rw [Nat.le_zero.mp digits]
    rfl
  | cons c cs ih =>
    cases n with
    | zero => rfl
    | succ n =>
      cases digit : isHexDigit c with
      | true =>
        rw [takeWhile_cons_of_pos digit] at digits
        rw [quoteChars_cons, quoteChar_of_isHexDigit digit, singleton_append, cons_append,
          drop_succ_cons, drop_succ_cons, ih (Nat.le_of_succ_le_succ digits)]
      | false =>
        rw [takeWhile_cons_of_neg (by simp [digit])] at digits
        cases digits

end Text

namespace Target

/-! ## Reading one escape -/

variable {t : Target} {cs rest behind : List Char} {c l : Char} {us : List Nat} {n w : Nat}

theorem numbered_hex {low high : Nat} (value : Nat → Option (List Nat)) (rest : List Char) (atLeast : low ≤ w)
    (atMost : w ≤ high) :
    let more := (rest.takeWhile isHexDigit).take (high - w)
    numbered low high value (hex w n ++ rest)
      = (value (hexNumber (hex w n ++ more))).map fun us => (us, rest.drop more.length) := by
  intro more
  have digits : ((hex w n ++ rest).takeWhile isHexDigit).take high = hex w n ++ more := by
    rw [takeWhile_append_of_pos isHexDigit_of_mem_hex, take_append, length_hex,
      take_of_length_le (by rw [length_hex]; exact atMost)]
  unfold numbered
  dsimp only
  rw [digits, length_append, length_hex, if_neg (by omega), ← drop_drop,
    drop_left' (length_hex w n)]

/-- A number of a fixed width is read back. -/
theorem numbered_fixed (value : Nat → Option (List Nat)) (rest : List Char) (small : n < 16 ^ w) :
    numbered w w value (hex w n ++ rest) = (value n).map fun us => (us, rest) := by
  rw [numbered_hex value rest (Nat.le_refl w) (Nat.le_refl w), Nat.sub_self, take_zero, append_nil, hexNumber_hex small]
  rfl

theorem units_of_ascii (t : Target) (ascii : c.toNat < 0x80) : t.units c = [c.toNat] := by
  have utf8 : (String.utf8EncodeChar c).map (·.toNat) = [c.toNat] := by
    have small : c.val.toNat ≤ 127 := Nat.le_of_lt_succ ascii
    rw [String.utf8EncodeChar]
    simp only [small, if_true, map_cons]
    rw [UInt8.toNat_ofNat_of_lt' (by exact Nat.lt_trans ascii (by decide))]
    rfl
  cases t with
  | cpp | rust => exact utf8
  | csharp | java | typescript => exact if_pos (by omega)

theorem units_ne_nil (t : Target) (c : Char) : t.units c ≠ [] := by
  cases t with
  | cpp | rust =>
    intro h
    have length := congrArg List.length h
    rw [units, length_map, String.length_utf8EncodeChar] at length
    exact Nat.ne_of_gt (Char.utf8Size_pos c) length
  | csharp | java | typescript =>
    unfold units
    dsimp only
    split <;> nofun

theorem point?_toNat (t : Target) (c : Char) : t.point? c.toNat = some (t.units c) := by
  have valid : c.toNat.isValidChar := c.valid
  rw [point?, if_pos valid, Char.ofNat_toNat]

theorem length_further_le (t : Target) (digits : List Char) : (t.further digits).length ≤ digits.length := by
  cases t with
  | cpp => exact Nat.le_refl _
  | csharp => exact (take_sublist 2 digits).length_le
  | java | rust | typescript => exact Nat.zero_le _

theorem taken_le (t : Target) (c : Char) (cs : List Char) : t.taken c cs ≤ (cs.takeWhile isHexDigit).length := by
  unfold taken
  split
  · exact length_further_le t _
  · exact Nat.zero_le _

theorem taken_le_length (t : Target) (c : Char) (cs : List Char) : t.taken c cs ≤ cs.length :=
  Nat.le_trans (taken_le t c cs) (takeWhile_sublist _).length_le

theorem taken_of_control (t : Target) (cs : List Char) (hidden : isPrintable c = false)
    (noLetter : letterEscape? c = none) (ascii : c.toNat < 0x80) :
    t.taken c cs = (t.further (cs.takeWhile isHexDigit)).length := by
  rw [taken, hidden, noLetter, decide_eq_true ascii]
  rfl

theorem taken_quoteChars (t : Target) (c : Char) (cs behind : List Char) :
    t.taken c (quoteChars cs ++ '"' :: behind) = t.taken c cs := by
  rw [taken, taken, takeWhile_quoteChars]

theorem escape?_mark (t : Target) (rest : List Char) (isMark : c = '"' ∨ c = '\\') :
    t.escape? (c :: rest) = some (t.units c, rest) := by
  obtain rfl | rfl := isMark <;> cases t <;> rfl

theorem escape?_of_lookup (h : t.letters.lookup c = none) : t.escape? (c :: rest) = t.otherEscape? c rest := by
  rw [escape?, h]

theorem escape?_letter (t : Target) (rest : List Char) (known : (n, l) ∈ letterEscapes)
    (reads : t.readsEscape n) : t.escape? (l :: rest) = some ([n], rest) := by
  have found : ∀ p ∈ letterEscapes,
      t.readsEscape p.1 → t.letters.lookup p.2 = some p.1 := by
    cases t <;> decide
  rw [escape?, found _ known reads]

theorem escape?_letter_lost (rest : List Char) (known : (n, l) ∈ letterEscapes) (lost : t.readsEscape n = false) :
    t.escape? (l :: rest) = none ∨ n = 7 ∧ t.escape? (l :: rest) = some ([0x61], rest) := by
  simp only [letterEscapes, mem_cons, not_mem_nil, or_false] at known
  obtain ⟨rfl, rfl⟩ | ⟨rfl, rfl⟩ | ⟨rfl, rfl⟩ | ⟨rfl, rfl⟩ | ⟨rfl, rfl⟩ | ⟨rfl, rfl⟩ | ⟨rfl, rfl⟩ := known
  all_goals cases t
  all_goals first
    | exact absurd lost (by decide)
    | exact .inl rfl
    | exact .inr ⟨rfl, rfl⟩

theorem head?_hex (n : Nat) (rest : List Char) : (hex (w + 1) n ++ rest).head? ≠ some '\x7b' := by
  have digits : ∀ c ∈ hex (w + 1) n, isHexDigit c := isHexDigit_of_mem_hex
  have length := length_hex (w + 1) n
  cases spelled : hex (w + 1) n with
  | nil => rw [spelled] at length; cases length
  | cons d ds =>
    intro brace
    have digit : isHexDigit d := digits d (by rw [spelled]; exact mem_cons_self)
    rw [Option.some.inj brace] at digit
    revert digit
    decide

theorem braced_eq_none {value : Nat → Option (List Nat)} (h : cs.head? ≠ some '\x7b') : braced value cs = none := by
  unfold braced
  split
  · exact absurd rfl h
  · rfl

/-- All targets but Java read `\x`, with the digits that they take. -/
theorem escape?_control (notJava : t ≠ java) (n : Nat) (rest : List Char) :
    let more := t.further (rest.takeWhile isHexDigit)
    ∃ bound, 0x80 ≤ bound ∧ t.escape? ('x' :: (hex 2 n ++ rest))
      = (unit? bound (hexNumber (hex 2 n ++ more))).map fun us => (us, rest.drop more.length) := by
  cases t with
  | cpp =>
    refine ⟨0x100, by decide, ?_⟩
    have length : (hex 2 n ++ rest).length - 2 = rest.length := by
      rw [length_append, length_hex]
      omega
    have read := numbered_hex (n := n) (unit? 0x100) rest (by decide : 1 ≤ 2)
      (by rw [length_append, length_hex]; omega : 2 ≤ (hex 2 n ++ rest).length)
    rw [length, take_of_length_le (takeWhile_sublist _).length_le] at read
    exact read
  | csharp => exact ⟨0x10000, by decide, numbered_hex (unit? 0x10000) rest (by decide) (by decide)⟩
  | java => exact absurd rfl notJava
  | rust => exact ⟨0x80, by decide, numbered_hex (unit? 0x80) rest (by decide) (by decide)⟩
  | typescript => exact ⟨0x100, by decide, numbered_hex (unit? 0x100) rest (by decide) (by decide)⟩

theorem escape?_short (rest : List Char) (ascii : 0x80 ≤ c.toNat) (basic : c.toNat < 0x10000)
    (reads : t.readsEscape c.toNat) : t.escape? ('u' :: (hex 4 c.toNat ++ rest)) = some (t.units c, rest) := by
  have small : c.toNat < 16 ^ 4 := basic
  have unit : numbered 4 4 (unit? 0x10000) (hex 4 c.toNat ++ rest) = some ([c.toNat], rest) := by
    rw [numbered_fixed _ rest small, unit?, if_pos basic]
    rfl
  have one : (if c.toNat < 0x10000 then [c.toNat]
      else [0xD800 + (c.toNat - 0x10000) / 0x400, 0xDC00 + (c.toNat - 0x10000) % 0x400]) = [c.toNat] := if_pos basic
  cases t with
  | cpp =>
    have point := numbered_fixed cpp.point? rest small
    rw [point?_toNat] at point
    exact point
  | csharp | java =>
    unfold units
    dsimp only
    rw [one]
    exact unit
  | rust =>
    rw [readsEscape, Bool.and_eq_true, decide_eq_true_eq] at reads
    exact absurd reads.1 (Nat.not_lt_of_le ascii)
  | typescript =>
    have read : typescript.escape? ('u' :: (hex 4 c.toNat ++ rest))
        = if (hex 4 c.toNat ++ rest).head? = some '\x7b' then braced typescript.point? (hex 4 c.toNat ++ rest)
          else numbered 4 4 (unit? 0x10000) (hex 4 c.toNat ++ rest) := rfl
    unfold units
    dsimp only
    rw [read, if_neg (head?_hex _ _), one]
    exact unit

theorem escape?_long (rest : List Char) (high : 0x10000 ≤ c.toNat) (reads : t.readsEscape c.toNat) :
    t.escape? ('U' :: (hex 8 c.toNat ++ rest)) = some (t.units c, rest) := by
  have small : c.toNat < 16 ^ 8 := c.val.toNat_lt
  have point : numbered 8 8 t.point? (hex 8 c.toNat ++ rest) = some (t.units c, rest) := by
    rw [numbered_fixed _ rest small, point?_toNat]
    rfl
  cases t with
  | cpp | csharp =>
    rw [escape?_of_lookup rfl, otherEscape?, if_neg (by decide), if_neg (by decide), if_pos rfl]
    exact point
  | java | rust | typescript =>
    simp [readsEscape] at reads
    omega

/-- TypeScript alone reads `\U` where it is not known, as the letter. -/
theorem escape?_long_lost (rest : List Char) (lost : t.readsEscape n = false) :
    t.escape? ('U' :: rest) = none ∨ t = typescript ∧ t.escape? ('U' :: rest) = some ([0x55], rest) := by
  cases t with
  | cpp | csharp => cases lost
  | java | rust => exact .inl rfl
  | typescript => exact .inr ⟨rfl, rfl⟩

variable {text : List Char}

/-- **An escape that the target knows** stands for its character, unless it takes digits behind it. -/
theorem escape?_spelling (spelled : Spelling c ('\\' :: text)) (reads : isPrintable c || t.readsEscape c.toNat)
    (ends : t.taken c rest = 0) : t.escape? (text ++ rest) = some (t.units c, rest) := by
  cases spelled with
  | mark isMark => exact escape?_mark t rest isMark
  | plain _ _ slash => exact absurd rfl slash
  | letter hidden found =>
    rw [hidden] at reads
    have known := mem_letterEscapes found
    have ascii : ∀ p ∈ letterEscapes, p.1 < 0x80 := by
      decide
    rw [singleton_append, escape?_letter t rest known reads, units_of_ascii t (ascii _ known)]
  | control hidden noLetter ascii =>
    rw [hidden, Bool.false_or] at reads
    have notJava : t ≠ java := by
      rintro rfl
      have code : c.toNat ∈ [8, 9, 10, 12, 13] := by
        rw [readsEscape, Bool.or_eq_true, Bool.and_eq_true, decide_eq_true_eq] at reads
        obtain code | ⟨high, -⟩ := reads
        · exact contains_iff_mem.mp code
        · omega
      have range := range_of_letterEscape?_eq_none noLetter
      simp only [mem_cons, not_mem_nil, or_false] at code
      omega
    obtain ⟨bound, large, read⟩ := escape?_control notJava c.toNat rest
    rw [taken_of_control t rest hidden noLetter ascii, length_eq_zero_iff] at ends
    rw [cons_append, read, ends, append_nil, hexNumber_hex (by omega), unit?, if_pos (by omega),
      units_of_ascii t ascii]
    rfl
  | short hidden ascii basic =>
    rw [hidden] at reads
    exact escape?_short rest ascii basic reads
  | long hidden high =>
    rw [hidden] at reads
    exact escape?_long rest high reads

/-- An escape that the target does not know is an error, or it stands for something else. -/
theorem head?_of_escape? (spelled : Spelling c ('\\' :: text))
    (lost : (isPrintable c || t.readsEscape c.toNat) = false) (read : t.escape? (text ++ rest) = some (us, behind)) :
    ∃ u, us.head? = some u ∧ (t.units c).head? ≠ some u := by
  rw [Bool.or_eq_false_iff] at lost
  obtain ⟨hidden, lost⟩ := lost
  cases spelled with
  | mark isMark => obtain rfl | rfl := isMark <;> exact absurd hidden (by decide)
  | plain _ _ slash => exact absurd rfl slash
  | letter _ found =>
    obtain failed | ⟨code, other⟩ := escape?_letter_lost rest (mem_letterEscapes found) lost
    · rw [singleton_append, failed] at read
      cases read
    · rw [singleton_append, other] at read
      cases read
      refine ⟨0x61, rfl, ?_⟩
      rw [units_of_ascii t (by omega), code]
      decide
  | control _ noLetter ascii =>
    have range := range_of_letterEscape?_eq_none noLetter
    cases t with
    | cpp | csharp => cases lost
    | java => cases read
    | rust | typescript =>
      simp [readsEscape] at lost
      omega
  | short _ ascii basic =>
    cases t with
    | cpp | csharp => cases lost
    | rust =>
      rw [cons_append, escape?_of_lookup rfl, otherEscape?,
        braced_eq_none (head?_hex _ _)] at read
      cases read
    | java | typescript =>
      simp [readsEscape] at lost
      omega
  | long _ high =>
    obtain failed | ⟨rfl, other⟩ := escape?_long_lost (hex 8 c.toNat ++ rest) lost
    · rw [cons_append, failed] at read
      cases read
    · cases read
      refine ⟨0x55, rfl, ?_⟩
      unfold units
      dsimp only
      rw [if_neg (Nat.not_lt_of_le high)]
      intro same
      have := Option.some.inj same
      omega

/-! ## Reading a text -/

theorem readText_escape (h : t.escape? cs = some (us, rest)) :
    t.readText ('\\' :: cs) = (t.readText rest).map fun (more, behind) => (us ++ more, behind) := by
  rw [readText, if_neg (by decide), if_pos rfl]
  split
  · next failed => rw [h] at failed; cases failed
  · next found => rw [h] at found; cases found; rfl

theorem readText_escape_eq_some (h : t.readText ('\\' :: cs) = some (us, behind)) :
    ∃ first rest more, t.escape? cs = some (first, rest) ∧ t.readText rest = some (more, behind) ∧ us = first ++ more := by
  cases found : t.escape? cs with
  | none =>
    rw [readText, if_neg (by decide), if_pos rfl] at h
    split at h
    · cases h
    · next read => rw [found] at read; cases read
  | some p =>
    obtain ⟨first, rest⟩ := p
    rw [readText_escape found] at h
    obtain ⟨⟨more, behind⟩, read, same⟩ := Option.map_eq_some_iff.mp h
    cases same
    exact ⟨first, rest, more, rfl, read, rfl⟩

theorem contains_breaks (t : Target) (printable : isPrintable c) : t.breaks.contains c = false := by
  have hidden : t.breaks.all (fun c => !Text.isPrintable c) = true := by cases t <;> decide +kernel
  rw [← Bool.not_eq_true, contains_iff_mem]
  intro mem
  have lost := all_eq_true.mp hidden c mem
  rw [printable] at lost
  cases lost

theorem readText_plain (cs : List Char) (printable : isPrintable c) (quote : c ≠ '"') (slash : c ≠ '\\') :
    t.readText (c :: cs) = (t.readText cs).map fun (more, behind) => (t.units c ++ more, behind) := by
  rw [readText, if_neg quote, if_neg slash, contains_breaks t printable]
  rfl

def readQuoted (t : Target) (cs behind : List Char) : Option (List Nat × List Char) :=
  t.readText (quoteChars cs ++ '"' :: behind)

theorem readQuoted_nil (t : Target) (behind : List Char) : t.readQuoted [] behind = some ([], behind) := by
  rw [readQuoted, quoteChars, flatMap_nil, nil_append, readText, if_pos rfl]

/-- A character is printed as it is, or by a backslash and more. -/
theorem readQuoted_cons (t : Target) (c : Char) (cs behind : List Char) : (isPrintable c ∧ t.readQuoted (c :: cs) behind
      = (t.readQuoted cs behind).map fun (more, rest) => (t.units c ++ more, rest)) ∨ ∃ text, Spelling c ('\\' :: text) ∧
      t.readQuoted (c :: cs) behind = t.readText ('\\' :: (text ++ (quoteChars cs ++ '"' :: behind))) := by
  have spelled := spelling c
  unfold readQuoted
  rw [quoteChars_cons]
  generalize quoteChar '"' c = text at spelled
  have way := spelled
  cases way with
  | plain printable quote slash => exact .inl ⟨printable, readText_plain _ printable quote slash⟩
  | mark | letter | control | short | long => exact .inr ⟨_, spelled, rfl⟩

/-- **A character whose spelling the target knows** is read, and then the text behind it. -/
theorem readQuoted_kept (behind : List Char) (reads : isPrintable c || t.readsEscape c.toNat) (ends : t.taken c cs = 0) :
    t.readQuoted (c :: cs) behind = (t.readQuoted cs behind).map fun (more, rest) => (t.units c ++ more, rest) := by
  obtain ⟨-, read⟩ | ⟨text, spelled, read⟩ := readQuoted_cons t c cs behind
  · exact read
  · rw [read, readText_escape (escape?_spelling spelled reads (by rw [taken_quoteChars, ends]))]
    rfl

/-- **A character whose spelling the target does not know** is not what is read. -/
theorem readQuoted_lost (lost : (isPrintable c || t.readsEscape c.toNat) = false)
    (read : t.readQuoted (c :: cs) behind = some (us, rest)) (more : List Nat) : us ≠ t.units c ++ more := by
  obtain ⟨printable, -⟩ | ⟨text, spelled, same⟩ := readQuoted_cons t c cs behind
  · rw [printable] at lost
    cases lost
  · rw [same] at read
    obtain ⟨first, _, _, found, -, rfl⟩ := readText_escape_eq_some read
    obtain ⟨u, head, other⟩ := head?_of_escape? spelled lost found
    intro equal
    have heads := congrArg List.head? equal
    rw [head?_append, head?_append, head] at heads
    cases units : (t.units c).head? with
    | none => exact units_ne_nil t c (head?_eq_none_iff.mp units)
    | some v =>
      rw [units] at heads
      exact other (units.trans heads.symm)

theorem taken_ne_zero (takes : t.taken c cs ≠ 0) :
    isPrintable c = false ∧ c.toNat < 0x80 ∧ letterEscape? c = none ∧ ∀ n, t.readsEscape n := by
  unfold taken at takes
  split at takes
  · next control =>
    rw [Bool.and_eq_true, Bool.and_eq_true, Bool.not_eq_true', decide_eq_true_eq, Option.isNone_iff_eq_none] at control
    refine ⟨control.1.1, control.1.2, control.2, fun n => ?_⟩
    cases t with
    | cpp | csharp => rfl
    | java | rust | typescript => exact absurd rfl takes
  · exact absurd rfl takes

/-- An escape that takes digits behind it is read as one unit, and the text goes on behind the digits. -/
theorem readQuoted_taken (takes : t.taken c cs ≠ 0) (read : t.readQuoted (c :: cs) behind = some (us, rest)) :
    ∃ n more, t.readQuoted (cs.drop (t.taken c cs)) behind = some (more, rest) ∧ us = n :: more := by
  obtain ⟨hidden, ascii, noLetter, all⟩ := taken_ne_zero takes
  obtain ⟨printable, -⟩ | ⟨text, spelled, same⟩ := readQuoted_cons t c cs behind
  · rw [hidden] at printable
    cases printable
  rw [same] at read
  obtain ⟨first, after, more, found, readMore, rfl⟩ := readText_escape_eq_some read
  cases spelled with
  | mark isMark => obtain rfl | rfl := isMark <;> exact absurd hidden (by decide)
  | plain printable => rw [hidden] at printable; cases printable
  | letter _ known => rw [noLetter] at known; cases known
  | short _ high => exact absurd ascii (Nat.not_lt_of_le high)
  | long _ high => exact absurd ascii (by omega)
  | control =>
    have notJava : t ≠ java := by
      rintro rfl
      exact absurd (all 7) (by decide)
    obtain ⟨bound, -, escape⟩ := escape?_control notJava c.toNat (quoteChars cs ++ '"' :: behind)
    rw [cons_append, escape, takeWhile_quoteChars, ← taken_of_control t cs hidden noLetter ascii,
      drop_quoteChars behind (taken_le t c cs)] at found
    obtain ⟨units, small, equal⟩ := Option.map_eq_some_iff.mp found
    cases equal
    unfold unit? at small
    split at small
    · cases small
      exact ⟨_, more, readMore, rfl⟩
    · cases small

theorem length_units_drop (some : n ≠ 0) (inside : n ≤ cs.length) :
    ((cs.drop n).flatMap t.units).length < (cs.flatMap t.units).length := by
  obtain ⟨n, rfl⟩ := Nat.exists_eq_succ_of_ne_zero some
  cases cs with
  | nil => cases inside
  | cons c cs =>
    have first : 0 < (t.units c).length := length_pos_iff.mpr (units_ne_nil t c)
    have split : (cs.take n).flatMap t.units ++ (cs.drop n).flatMap t.units = cs.flatMap t.units := by
      rw [← flatMap_append, take_append_drop]
    have lengths := congrArg length split
    rw [length_append] at lengths
    rw [drop_succ_cons, flatMap_cons, length_append]
    omega

/-- Where all escapes are known, a text is never read as more than its units. The induction is on the length of the
text, as an escape can take several characters at once. -/
theorem length_of_readQuoted (all : ∀ n, t.readsEscape n) (read : t.readQuoted cs behind = some (us, rest)) :
    us.length ≤ (cs.flatMap t.units).length := by
  induction size : cs.length using Nat.strongRecOn generalizing cs us with
  | ind size ih =>
    cases cs with
    | nil =>
      rw [readQuoted_nil] at read
      cases read
      exact Nat.le_refl 0
    | cons c cs =>
      rw [length_cons] at size
      by_cases ends : t.taken c cs = 0
      · rw [readQuoted_kept behind (by rw [all, Bool.or_true]) ends] at read
        obtain ⟨⟨more, _⟩, readMore, same⟩ := Option.map_eq_some_iff.mp read
        cases same
        have bound := ih cs.length (by omega) readMore rfl
        rw [flatMap_cons, length_append, length_append]
        omega
      · obtain ⟨n, more, readMore, rfl⟩ := readQuoted_taken ends read
        have bound := ih (cs.drop (t.taken c cs)).length (by rw [length_drop]; omega) readMore rfl
        have fewer := length_units_drop (t := t) ends (taken_le_length t c cs)
        rw [flatMap_cons, length_append, length_cons]
        omega

theorem readQuoted_eq_some_iff (t : Target) (cs behind : List Char) :
    t.readQuoted cs behind = some (cs.flatMap t.units, behind) ↔ t.survives cs := by
  induction cs with
  | nil => exact ⟨fun _ => rfl, fun _ => readQuoted_nil t behind⟩
  | cons c cs ih =>
    rw [survives, Bool.and_eq_true, Bool.and_eq_true, decide_eq_true_eq, flatMap_cons, ← ih]
    constructor
    · intro read
      have reads : isPrintable c || t.readsEscape c.toNat := by
        by_contra lost
        exact readQuoted_lost (Bool.not_eq_true _ ▸ lost) read _ rfl
      have ends : t.taken c cs = 0 := by
        by_contra takes
        obtain ⟨_, ascii, -, all⟩ := taken_ne_zero takes
        obtain ⟨n, more, readMore, same⟩ := readQuoted_taken takes read
        have bound := length_of_readQuoted all readMore
        have fewer := length_units_drop (t := t) takes (taken_le_length t c cs)
        have lengths := congrArg length same
        rw [units_of_ascii t ascii, singleton_append, length_cons, length_cons] at lengths
        omega
      rw [readQuoted_kept behind reads ends] at read
      obtain ⟨⟨more, _⟩, readMore, same⟩ := Option.map_eq_some_iff.mp read
      rw [Prod.mk.injEq, append_cancel_left_eq] at same
      obtain ⟨rfl, rfl⟩ := same
      exact ⟨⟨reads, ends⟩, readMore⟩
    · rintro ⟨⟨reads, ends⟩, read⟩
      rw [readQuoted_kept behind reads ends, read]
      rfl

theorem toList_literal (t : Target) (s : String) (type : Option Ty) : (t.literal ⟨.string, s⟩ type).toList
      = t.around.1.toList ++ (quoteChars s.toList ++ '"' :: t.around.2.toList) := by
  have quoted : (Text.quoted s).toList = '"' :: quoteChars s.toList ++ ['"'] := by
    rw [Text.quoted, String.toList_ofList]
  cases t with
  | rust =>
    have same : rust.literal ⟨.string, s⟩ type = "String::from(" ++ Text.quoted s ++ ")" := rfl
    rw [same, String.toList_append, String.toList_append, quoted]
    simp [around]
  | cpp | csharp | java | typescript =>
    exact quoted.trans (by simp [around])

/-- **Texts survive as literals** exactly when the target knows all their escapes and none takes a digit of the text. -/
theorem denoted?_literal_eq_some_iff (t : Target) (s : String) (type : Option Ty) :
    t.denoted? (t.literal ⟨.string, s⟩ type) = some (s.toList.flatMap t.units) ↔ t.survives s.toList := by
  rw [← readQuoted_eq_some_iff t s.toList t.around.2.toList, denoted?, toList_literal, Text.afterChars?_append,
    Option.bind_some, ← readQuoted]
  constructor
  · intro h
    split at h
    · next us rest read =>
      split at h
      · next ends =>
        rw [read, ends, Option.some.inj h]
      · cases h
    · cases h
  · intro h
    rw [h]
    exact if_pos rfl

/-- No target reads this text back: the bell has no escape in three of them, and in the other two the escape of the next
character takes the `a`. -/
theorem literal_bell_ne :
    (all.filter fun t =>
      t.denoted? (t.literal ⟨.string, "\x07\x01a"⟩ none) = some ("\x07\x01a".toList.flatMap t.units)) = [] := by
  decide +kernel

end Target

end Polyglot
