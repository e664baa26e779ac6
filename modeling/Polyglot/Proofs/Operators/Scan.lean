import Polyglot.Proofs.Names
import Polyglot.Target.Precedence
import Mathlib.Data.List.MinMax

/-!
# Scanning operator text

Operator text is cut into words (names and numerals) and marks (operators and brackets). A word is as long as word characters
follow each other, and of several marks at the front the longest one is taken, so `---` is `--` and then `-`.
`Scans marks text tokens` says that a text is cut so in front of a blank, a closing bracket, a sign or the end.
-/

namespace Polyglot.Operators

open List Text

/-- A token of operator text. -/
inductive Token where
  /-- A name or a numeral. -/
  | word (text : String)
  /-- An operator or a bracket. -/
  | mark (text : String)
deriving Repr, DecidableEq

/-- A character of a word: of an identifier, or a sign that makes a reserved word an identifier. -/
def isWordChar (c : Char) : Bool := isIdentifierChar c || c = '@' || c = '#'

/-- The longest mark at the front. -/
def munch (marks : List String) (cs : List Char) : Option String :=
  (marks.filter fun m => m.toList.isPrefixOf cs).argmax String.length

/-- **The tokens of a text**, or nothing when a character belongs to no token. -/
def scan (marks : List String) : List Char → Option (List Token)
  | [] => some []
  | c :: cs =>
    if c = ' ' then scan marks cs
    else if isWordChar c then
      (scan marks (cs.dropWhile isWordChar)).map
        (.word (String.ofList (c :: cs.takeWhile isWordChar)) :: ·)
    else
      match munch marks (c :: cs) with
      | none => none
      | some m => (scan marks (cs.drop (m.length - 1))).map (.mark m :: ·)
termination_by cs => cs.length
decreasing_by
  · simp
  · exact Nat.lt_succ_of_le (dropWhile_sublist _).length_le
  · simp only [length_drop, length_cons]
    omega

/-! ## One token -/

variable {marks : List String} {c : Char}

@[simp] theorem scan_nil : scan marks [] = some [] := by rw [scan]

@[simp] theorem scan_blank (cs : List Char) : scan marks (' ' :: cs) = scan marks cs := by
  rw [scan]
  rfl

theorem not_blank_of_isWordChar (h : isWordChar c = true) : c ≠ ' ' := by
  rintro rfl
  exact absurd h (by decide)

variable {rest a : List Char} {as : List Token} {m : String}

variable {w : List Char}

theorem scan_word (nonempty : w ≠ []) (chars : ∀ c ∈ w, isWordChar c = true) (ends : ∀ c ∈ rest.head?, isWordChar c = false) :
    scan marks (w ++ rest) = (scan marks rest).map (.word (String.ofList w) :: ·) := by
  obtain ⟨c, w, rfl⟩ := exists_cons_of_ne_nil nonempty
  have hc := chars c mem_cons_self
  have hw : ∀ d ∈ w, isWordChar d = true := fun d hd => chars d (mem_cons_of_mem _ hd)
  have none : rest.takeWhile isWordChar = [] ∧ rest.dropWhile isWordChar = rest := by
    cases rest with
    | nil => exact ⟨rfl, rfl⟩
    | cons d rest =>
      have hd : isWordChar d = false := ends d rfl
      simp [hd]
  rw [cons_append, scan, if_neg (not_blank_of_isWordChar hc), if_pos hc,
    takeWhile_append_of_pos hw, dropWhile_append_of_pos hw, none.1, none.2, append_nil]

def extensions (marks : List String) (m : String) : List Char :=
  marks.filterMap fun u => (afterChars? m.toList u.toList).bind head?

theorem exists_mem_of_mem_extensions (hc : c ∈ extensions marks m) : ∃ u ∈ marks, c ∈ u.toList := by
  obtain ⟨u, hu, found⟩ := mem_filterMap.mp hc
  obtain ⟨rest, after, first⟩ := Option.bind_eq_some_iff.mp found
  refine ⟨u, hu, ?_⟩
  rw [eq_append_of_afterChars? after]
  exact mem_append_right _ (mem_of_head? first)

/-- Of two marks at the front of a text the longer one extends the shorter one by the character that follows
it. -/
theorem mem_extensions_of_longer {u : String} (hu : u ∈ marks) (leads : u.toList <+: m.toList ++ rest)
    (longer : m.length < u.length) : ∃ c ∈ rest.head?, c ∈ extensions marks m := by
  obtain ⟨tail, htail⟩ := leads
  rw [← String.length_toList] at longer
  obtain ⟨more, hmore⟩ : m.toList <+: u.toList :=
    prefix_of_prefix_length_le (prefix_append _ rest) ⟨tail, htail⟩ (Nat.le_of_lt longer)
  cases more with
  | nil =>
    rw [append_nil] at hmore
    rw [hmore] at longer
    exact absurd longer (Nat.lt_irrefl _)
  | cons c more =>
    have hrest : (c :: more) ++ tail = rest := by
      rw [← hmore, append_assoc] at htail
      exact append_cancel_left htail
    refine ⟨c, by rw [← hrest]; rfl, ?_⟩
    refine mem_filterMap.mpr ⟨u, hu, ?_⟩
    rw [← hmore, afterChars?_append]
    rfl

/-- A mark is taken whole when no longer one begins where it does. -/
theorem munch_mark (hm : m ∈ marks) (ends : ∀ c ∈ rest.head?, c ∉ extensions marks m) :
    munch marks (m.toList ++ rest) = some m := by
  have here : m ∈ marks.filter fun u => u.toList.isPrefixOf (m.toList ++ rest) :=
    mem_filter.mpr ⟨hm, isPrefixOf_iff_prefix.mpr (prefix_append _ _)⟩
  cases best : munch marks (m.toList ++ rest) with
  | none =>
    rw [munch, argmax_eq_none] at best
    rw [best] at here
    exact absurd here not_mem_nil
  | some u =>
    obtain ⟨hu, leads⟩ := mem_filter.mp (argmax_mem (Option.mem_def.mpr best))
    have leads : u.toList <+: m.toList ++ rest := isPrefixOf_iff_prefix.mp leads
    have least : m.length ≤ u.length := by
      have notLess := not_lt_of_mem_argmax here (Option.mem_def.mpr best)
      exact Nat.le_of_not_lt notLess
    have most : u.length ≤ m.length := by
      by_contra longer
      obtain ⟨c, hc, bad⟩ := mem_extensions_of_longer hu leads (Nat.lt_of_not_le longer)
      exact ends c hc bad
    -- Two prefixes of one text with one length are the same.
    have same : u.toList = m.toList := by
      have lengths : u.toList.length = m.toList.length := by
        exact Nat.le_antisymm most least
      obtain ⟨tail, htail⟩ := leads
      exact (append_inj htail lengths).1
    rw [String.toList_injective same]

/-- What begins a mark: neither a blank nor a word character. -/
def beginsMark (m : String) : Bool :=
  match m.toList with
  | [] => false
  | c :: _ => c != ' ' && !isWordChar c

theorem scan_mark (hm : m ∈ marks) (begins : beginsMark m = true) (ends : ∀ c ∈ rest.head?, c ∉ extensions marks m) :
    scan marks (m.toList ++ rest) = (scan marks rest).map (.mark m :: ·) := by
  have best := munch_mark hm ends
  cases chars : m.toList with
  | nil =>
    rw [beginsMark, chars] at begins
    exact absurd begins (by simp)
  | cons c cs =>
    rw [beginsMark, chars] at begins
    simp only [Bool.and_eq_true, bne_iff_ne, Bool.not_eq_true'] at begins
    have length : m.length - 1 = cs.length := by
      rw [← String.length_toList, chars]
      rfl
    rw [chars] at best
    rw [cons_append] at best ⊢
    rw [scan, if_neg begins.1, if_neg (by simp [begins.2]), best]
    simp only [length, drop_left]

/-! ## Texts -/

/-- What may follow a text without changing its tokens: a blank, a closing bracket, a sign or the end. -/
def Delimits (rest : List Char) : Prop :=
  ∀ c ∈ rest.head?, c = ' ' ∨ c = ')' ∨ c = '+' ∨ c = '-'

/-- **The text is cut into the tokens**, whatever delimits it. -/
def Scans (marks : List String) (text : List Char) (tokens : List Token) : Prop :=
  ∀ rest, Delimits rest → scan marks (text ++ rest) = (scan marks rest).map (tokens ++ ·)

theorem Scans.word (nonempty : w ≠ []) (chars : ∀ c ∈ w, isWordChar c = true) : Scans marks w [.word (String.ofList w)] := by
  intro rest delimits
  refine scan_word nonempty chars ?_
  intro c hc
  rcases delimits c hc with rfl | rfl | rfl | rfl <;> decide

/-- One text after another, which delimits it. -/
theorem Scans.append {b : List Char} {bs : List Token} (ha : Scans marks a as) (hb : Scans marks b bs)
    (nonempty : b ≠ []) (delimits : Delimits b) : Scans marks (a ++ b) (as ++ bs) := by
  intro rest hrest
  have next : Delimits (b ++ rest) := by
    cases b with
    | nil => exact absurd rfl nonempty
    | cons c b => exact delimits
  rw [append_assoc, ha _ next, hb _ hrest, Option.map_map]
  congr 1
  funext tokens
  exact (append_assoc as bs tokens).symm

theorem Scans.blank (ha : Scans marks a as) : Scans marks (' ' :: a) as := by
  intro rest hrest
  rw [cons_append, scan_blank]
  exact ha rest hrest

theorem Scans.mark_append (hm : m ∈ marks) (begins : beginsMark m = true) (ha : Scans marks a as) (nonempty : a ≠ [])
    (ends : ∀ c ∈ a.head?, c ∉ extensions marks m) : Scans marks (m.toList ++ a) (.mark m :: as) := by
  intro rest hrest
  have next : ∀ c ∈ (a ++ rest).head?, c ∉ extensions marks m := by
    cases a with
    | nil => exact absurd rfl nonempty
    | cons c a => exact ends
  rw [append_assoc, scan_mark hm begins next, ha rest hrest, Option.map_map]
  rfl

/-- A mark that nothing extends where it may stand. -/
theorem Scans.mark (hm : m ∈ marks) (begins : beginsMark m = true) (ends : ∀ c ∈ [' ', ')', '+', '-'], c ∉ extensions marks m) :
    Scans marks m.toList [.mark m] := by
  intro rest hrest
  refine scan_mark hm begins ?_
  intro c hc
  refine ends c ?_
  rcases hrest c hc with rfl | rfl | rfl | rfl <;> decide

theorem Scans.scan_eq (ha : Scans marks a as) : scan marks a = some as := by
  have whole := ha [] (by intro c hc; cases hc)
  simpa using whole

end Polyglot.Operators
