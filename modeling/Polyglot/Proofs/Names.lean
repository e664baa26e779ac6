import Polyglot.Target.Naming

/-!
# Identifiers stay identifiers

Names are rewritten on their way to a target: capitals become small letters, and `_` is put before a new word. None of it
leaves the characters of identifiers, and a name which begins with no digit keeps beginning with none. The case tables are
opened in one place (`lowerShifts_inside`).
-/

namespace Polyglot.Text

open List

/-- A character of an identifier: a letter or a digit of ASCII, an underscore, or anything beyond ASCII. -/
def isIdentifierChar (c : Char) : Bool := c.isAlphanum || c = '_' || 0x80 ≤ c.toNat

def IsWord (cs : List Char) : Prop := cs ≠ [] ∧ ∀ c ∈ cs, isIdentifierChar c = true

/-- A word that does not begin with a digit. -/
def IsName (cs : List Char) : Prop := IsWord cs ∧ ∀ c ∈ cs.head?, c.isDigit = false

instance (cs : List Char) : Decidable (IsWord cs) :=
  decidable_of_iff (cs ≠ [] ∧ cs.all isIdentifierChar = true) (by rw [IsWord, all_eq_true])

instance (cs : List Char) : Decidable (IsName cs) :=
  decidable_of_iff (IsWord cs ∧ cs.head?.all (! ·.isDigit) = true) (by cases cs <;> simp [IsName])

/-! ## One character -/

variable {cs ds : List Char} {c : Char}

theorem isIdentifierChar_of_le (h : 0x80 ≤ c.toNat) : isIdentifierChar c = true := by
  simp only [isIdentifierChar, h, decide_true, Bool.or_true]

theorem isDigit_eq_false (h : 0x3A ≤ c.toNat) : c.isDigit = false := by
  simp only [Char.isDigit, Bool.and_eq_false_iff, decide_eq_false_iff_not]
  right
  intro hle
  have hnat : c.val.toNat ≤ 57 := UInt32.le_iff_toNat_le.mp hle
  change 0x3A ≤ c.val.toNat at h
  omega

/-- A row of the table of lower-case forms stays among the code points beyond ASCII, or is one of the two
characters whose small form is a letter of ASCII, or is about ASCII itself. -/
def lowersInside (row : Run × Int) : Bool :=
  let low := row.1.first + row.2
  let high := row.1.last + row.2
  (0x80 ≤ low && high < 0xD800) || (0xE000 ≤ low && high < 0x110000) ||
    (row.1.first = row.1.last && (low = 0x69 || low = 0x6B)) || row.1.last < 0x80

theorem lowerShifts_inside : ∀ row ∈ lowerShifts, lowersInside row = true :=
  all_eq_true.mp (by decide)

theorem toNat_ofNat {n : Nat} (h : n < 0xD800 ∨ (0xE000 ≤ n ∧ n < 0x110000)) : (Char.ofNat n).toNat = n := by
  have valid : n.isValidChar := by
    omega
  rw [Char.ofNat, dif_pos valid]
  exact UInt32.toNat_ofNatLT

/-- Beyond ASCII the small form of a character is beyond ASCII again, or one of two letters. -/
theorem toLower_beyond (h : 0x80 ≤ c.toNat) : 0x80 ≤ (toLower c).toNat ∨ toLower c = 'i' ∨ toLower c = 'k' := by
  rw [toLower, if_neg (by omega)]
  cases found : lowerShifts.find? (fun row => row.1.holds c.toNat) with
  | none => exact Or.inl h
  | some row =>
    obtain ⟨run, shift⟩ := row
    have inside := lowerShifts_inside _ (mem_of_find?_eq_some found)
    have holds : run.holds c.toNat = true := by simpa using find?_some found
    simp only [Run.holds, Bool.and_eq_true, decide_eq_true_eq] at holds
    simp only [lowersInside, Bool.or_eq_true, Bool.and_eq_true, decide_eq_true_eq] at inside
    -- The rows that leave the code points beyond ASCII hold one character each.
    have letter : ∀ n, c.toNat + shift = n → Char.ofNat (Int.toNat (c.toNat + shift)) = Char.ofNat n.toNat := by
      intro n hn
      rw [hn]
    rcases inside with ((⟨low, high⟩ | ⟨low, high⟩) | ⟨single, low | low⟩) | ascii
    · left
      rw [toNat_ofNat (by omega)]
      omega
    · left
      rw [toNat_ofNat (by omega)]
      omega
    · exact Or.inr (Or.inl (letter 0x69 (by omega)))
    · exact Or.inr (Or.inr (letter 0x6B (by omega)))
    · omega

theorem toLower_ascii : ∀ n < 0x80, (isIdentifierChar (Char.ofNat n) = true → isIdentifierChar (Char.ofNat n).toLower = true) ∧
      (Char.ofNat n).toLower.isDigit = (Char.ofNat n).isDigit := by decide

/-- The small form of an identifier character is one. -/
theorem isIdentifierChar_toLower (h : isIdentifierChar c = true) : isIdentifierChar (toLower c) = true := by
  by_cases ascii : c.toNat < 0x80
  · have both := (toLower_ascii c.toNat ascii).1
    rw [Char.ofNat_toNat] at both
    rw [toLower, if_pos ascii]
    exact both h
  · rcases toLower_beyond (Nat.le_of_not_lt ascii) with beyond | i | k
    · exact isIdentifierChar_of_le beyond
    · rw [i]
      decide
    · rw [k]
      decide

/-- Neither the small form of a digit nor the small form of anything else becomes or ceases to be a digit. -/
theorem isDigit_toLower (c : Char) : (toLower c).isDigit = c.isDigit := by
  by_cases ascii : c.toNat < 0x80
  · have both := (toLower_ascii c.toNat ascii).2
    rw [Char.ofNat_toNat] at both
    rw [toLower, if_pos ascii]
    exact both
  · rw [isDigit_eq_false (c := c) (by omega)]
    rcases toLower_beyond (Nat.le_of_not_lt ascii) with beyond | i | k
    · exact isDigit_eq_false (by omega)
    · rw [i]
      decide
    · rw [k]
      decide

/-! ## Whole names -/

theorem IsWord.map_toLower (h : IsWord cs) : IsWord (cs.map toLower) := by
  refine ⟨by simpa using h.1, ?_⟩
  intro c hc
  obtain ⟨d, hd, rfl⟩ := mem_map.mp hc
  exact isIdentifierChar_toLower (h.2 d hd)

theorem isIdentifierChar_of_mem_lowerLead (h : ∀ c ∈ cs, isIdentifierChar c = true) (isFirst : Bool) :
    ∀ c ∈ lowerLead isFirst cs, isIdentifierChar c = true := by
  induction cs generalizing isFirst with
  | nil => simp [lowerLead]
  | cons d cs ih =>
    have hrest := ih (fun c hc => h c (mem_cons_of_mem _ hc)) false
    intro c hc
    rw [lowerLead] at hc
    split at hc
    · exact h c hc
    · split at hc
      · exact h c hc
      · rcases mem_cons.mp hc with rfl | hc
        · exact isIdentifierChar_toLower (h d mem_cons_self)
        · exact hrest c hc

theorem isIdentifierChar_of_mem_snakeChars (h : ∀ c ∈ cs, isIdentifierChar c = true) (prev : Option Char) :
    ∀ c ∈ snakeChars prev cs, isIdentifierChar c = true := by
  induction cs generalizing prev with
  | nil => simp [snakeChars]
  | cons d cs ih =>
    have hd := h d mem_cons_self
    have hrest := ih (fun c hc => h c (mem_cons_of_mem _ hc)) (some d)
    intro c hc
    simp only [snakeChars] at hc
    split at hc
    · rcases mem_cons.mp hc with rfl | hc
      · exact hd
      · exact hrest c hc
    · split at hc
      · rcases mem_cons.mp hc with rfl | hc
        · decide
        · rcases mem_cons.mp hc with rfl | hc
          · exact isIdentifierChar_toLower hd
          · exact hrest c hc
      · rcases mem_cons.mp hc with rfl | hc
        · exact isIdentifierChar_toLower hd
        · exact hrest c hc

/-- The first character of a name in snake case is the first one of the name, or its small form. -/
theorem snakeChars_cons (c : Char) (cs : List Char) :
    ∃ rest, snakeChars none (c :: cs) = c :: rest ∨ snakeChars none (c :: cs) = toLower c :: rest := by
  simp only [snakeChars]
  split
  · exact ⟨_, Or.inl rfl⟩
  · exact ⟨_, Or.inr rfl⟩

/-- The first character of a name in camel case is the first one of the name, or its small form. -/
theorem lowerLead_cons (c : Char) (cs : List Char) :
    ∃ rest, lowerLead true (c :: cs) = c :: rest ∨ lowerLead true (c :: cs) = toLower c :: rest := by
  simp only [lowerLead]
  split
  · exact ⟨_, Or.inl rfl⟩
  · exact ⟨_, Or.inr rfl⟩

/-- A rewriting of names that keeps identifier characters and, up to case, the first character. -/
theorem IsName.rewrite (h : IsName cs) (chars : ∀ c ∈ ds, isIdentifierChar c = true)
    (first : ∀ c rest, cs = c :: rest → ∃ rest', ds = c :: rest' ∨ ds = toLower c :: rest') : IsName ds := by
  obtain ⟨⟨nonempty, -⟩, head⟩ := h
  obtain ⟨c, rest, rfl⟩ := exists_cons_of_ne_nil nonempty
  have digit : c.isDigit = false := head c rfl
  obtain ⟨rest', rfl | rfl⟩ := first c rest rfl
  · exact ⟨⟨cons_ne_nil _ _, chars⟩, by simpa using digit⟩
  · refine ⟨⟨cons_ne_nil _ _, chars⟩, ?_⟩
    simpa [isDigit_toLower] using digit

theorem IsName.snakeChars (h : IsName cs) : IsName (snakeChars none cs) :=
  h.rewrite (isIdentifierChar_of_mem_snakeChars h.1.2 none)
    (fun c rest heq => heq ▸ snakeChars_cons c rest)

theorem case_digit : ∀ n < 0x80, (Char.ofNat n).isDigit = true →
    (Char.ofNat n).isUpper = false ∧ (Char.ofNat n).isLower = false := by decide

theorem isUpper_isLower_of_isDigit (h : c.isDigit = true) : isUpper c = false ∧ isLower c = false := by
  have ascii : c.toNat < 0x80 := by
    refine Nat.lt_of_not_le fun beyond => ?_
    rw [isDigit_eq_false (by omega)] at h
    cases h
  have case := case_digit c.toNat ascii
  rw [Char.ofNat_toNat] at case
  rw [isUpper, isLower, if_pos ascii, if_pos ascii]
  exact case h

theorem snakeChars_of_digits (h : ∀ c ∈ ds, c.isDigit = true) (prev : Option Char) : snakeChars prev ds = ds := by
  induction ds generalizing prev with
  | nil => rfl
  | cons d ds ih =>
    have digit := (isUpper_isLower_of_isDigit (h d mem_cons_self)).1
    simp [snakeChars, digit, ih fun c hc => h c (mem_cons_of_mem _ hc)]

/-- Digits behind a name stay as they are. -/
theorem snakeChars_append_digits (h : ∀ c ∈ ds, c.isDigit = true) (cs : List Char) (prev : Option Char) :
    snakeChars prev (cs ++ ds) = snakeChars prev cs ++ ds := by
  induction cs generalizing prev with
  | nil => exact snakeChars_of_digits h prev
  | cons c cs ih =>
    have next : (cs ++ ds).head?.any isLower = cs.head?.any isLower := by
      cases cs with
      | nil =>
        cases ds with
        | nil => rfl
        | cons d ds => exact (isUpper_isLower_of_isDigit (h d mem_cons_self)).2
      | cons d cs => rfl
    have begins : beginsWord prev (cs ++ ds).head? = beginsWord prev cs.head? := by rw [beginsWord, beginsWord, next]
    simp only [cons_append, snakeChars, ih, begins]
    cases isUpper c <;> cases beginsWord prev cs.head? <;> rfl

theorem IsName.lowerLead (h : IsName cs) : IsName (lowerLead true cs) :=
  h.rewrite (isIdentifierChar_of_mem_lowerLead h.1.2 true)
    (fun c rest heq => heq ▸ lowerLead_cons c rest)

end Polyglot.Text

namespace Polyglot.Target

open Text

/-- **A name in the habit of a target is a name.** -/
theorem isName_fit (t : Target) {name : String} (h : IsName name.toList) : IsName (t.fit name).toList := by
  cases t with
  | cpp | csharp => exact h
  | java | typescript => simpa only [fit, lowerFirst, String.toList_ofList] using h.lowerLead
  | rust => simpa only [fit, snakeCase, String.toList_ofList] using h.snakeChars

end Polyglot.Target
