import Polyglot.Proofs.Keys
import Polyglot.Proofs.Names

/-!
# Names up to case and underscores

A target changes the case of letters in a name and puts underscores before words. Folded, a name has no underscores and no
capitals, so it is the same before and after. The table of lower-case forms is opened in one place: `lowerRuns_apart` says that
no lower-case form has another one.
-/

namespace Polyglot.Text

open List

/-! ## Characters -/

/-- No code point of one run is on the other. -/
def Run.apart (r s : Run) : Bool :=
  Nat.blt r.last s.first || Nat.blt s.last r.first || (r.step == 2 && s.step == 2 && (r.first + s.first) % 2 == 1) ||
    (r.first == r.last && !s.holds r.first) || (s.first == s.last && !r.holds s.first)

variable {c : Char} {n : Nat} {r : Run}

theorem Run.holds_iff : r.holds n = true ↔ r.first ≤ n ∧ n ≤ r.last ∧ (n - r.first) % r.step = 0 := by
  simp [holds, and_assoc]

theorem Run.apart_sound {s : Run} (apart : r.apart s = true) (here : r.holds n = true) : s.holds n = false := by
  rw [Bool.eq_false_iff]
  intro there
  obtain ⟨low, high, step⟩ := holds_iff.mp here
  obtain ⟨low', high', step'⟩ := holds_iff.mp there
  simp only [Run.apart, Bool.or_eq_true, Bool.and_eq_true, beq_iff_eq, Bool.not_eq_true', Nat.blt_eq] at apart
  rcases apart with (((before | behind) | ⟨⟨two, two'⟩, odd⟩) | ⟨single, off⟩) | ⟨single, off⟩
  · omega
  · omega
  · rw [two] at step
    rw [two'] at step'
    omega
  · have same : n = r.first := by omega
    rw [same, off] at there
    cases there
  · have same : n = s.first := by omega
    rw [same, off] at here
    cases here

def loweredRun (row : Run × Int) : Run := ⟨Int.toNat (row.1.first + row.2), Int.toNat (row.1.last + row.2), row.1.step⟩

theorem lowerRuns_apart : ∀ row ∈ lowerShifts, ∀ other ∈ lowerShifts, (loweredRun row).apart other.1 = true := by
  have all : (lowerShifts.all fun row => lowerShifts.all fun other => (loweredRun row).apart other.1) = true := by
    decide +kernel
  intro row hrow other hother
  exact all_eq_true.mp (all_eq_true.mp all row hrow) other hother

theorem lowerShifts_nonneg : ∀ row ∈ lowerShifts, 0 ≤ row.1.first + row.2 := by
  have all : (lowerShifts.all fun row => decide (0 ≤ row.1.first + row.2)) = true := by decide +kernel
  intro row hrow
  exact of_decide_eq_true (all_eq_true.mp all row hrow)

theorem loweredRun_holds {row : Run × Int} (nonneg : 0 ≤ row.1.first + row.2) (here : row.1.holds n = true) :
    (loweredRun row).holds (Int.toNat (n + row.2)) = true := by
  obtain ⟨low, high, step⟩ := Run.holds_iff.mp here
  have moved : Int.toNat (n + row.2) - Int.toNat (row.1.first + row.2) = n - row.1.first := by omega
  refine Run.holds_iff.mpr ⟨?_, ?_, ?_⟩
  · change Int.toNat (row.1.first + row.2) ≤ _
    omega
  · change _ ≤ Int.toNat (row.1.last + row.2)
    omega
  · change (_ - Int.toNat (row.1.first + row.2)) % row.1.step = 0
    rw [moved, step]

theorem toLower_toLower_ascii : ∀ n < 0x80, (Char.ofNat n).toLower.toNat < 0x80 ∧
    (Char.ofNat n).toLower.toLower = (Char.ofNat n).toLower ∧ ((Char.ofNat n).toLower = '_' → Char.ofNat n = '_') := by
  decide

theorem toNat_ofNat_of_pos (some : 0 < (Char.ofNat n).toNat) : (Char.ofNat n).toNat = n := by
  by_cases valid : n.isValidChar
  · rw [Char.ofNat, dif_pos valid]
    exact UInt32.toNat_ofNatLT
  · rw [Char.ofNat, dif_neg valid] at some
    exact absurd some (by decide)

/-- A lower-case form is its own. -/
theorem toLower_toLower (c : Char) : toLower (toLower c) = toLower c := by
  by_cases ascii : c.toNat < 0x80
  · obtain ⟨below, same, -⟩ := toLower_toLower_ascii c.toNat ascii
    rw [Char.ofNat_toNat] at below same
    rw [toLower, toLower, if_pos ascii, if_pos below, same]
  · rcases toLower_beyond (Nat.le_of_not_lt ascii) with beyond | i | k
    · cases found : lowerShifts.find? (fun row => row.1.holds c.toNat) with
      | none =>
        have same : toLower c = c := by rw [toLower, if_neg ascii, found]
        rw [same, same]
      | some row =>
        have lowered : toLower c = Char.ofNat (Int.toNat (c.toNat + row.2)) := by rw [toLower, if_neg ascii, found]
        have mem := mem_of_find?_eq_some found
        have here : row.1.holds c.toNat = true := by simpa using find?_some found
        have image := loweredRun_holds (lowerShifts_nonneg row mem) here
        have code : (toLower c).toNat = Int.toNat (c.toNat + row.2) := by
          rw [lowered]
          exact toNat_ofNat_of_pos (by rw [← lowered]; omega)
        have none : lowerShifts.find? (fun other => other.1.holds (toLower c).toNat) = none := by
          rw [find?_eq_none]
          intro other hother
          rw [code, Run.apart_sound (lowerRuns_apart row mem other hother) image]
          exact Bool.false_ne_true
        rw [toLower, if_neg (by omega), none]
    · rw [i]
      decide
    · rw [k]
      decide

theorem toLower_ne_underscore (h : c ≠ '_') : toLower c ≠ '_' := by
  intro same
  by_cases ascii : c.toNat < 0x80
  · obtain ⟨-, -, back⟩ := toLower_toLower_ascii c.toNat ascii
    rw [Char.ofNat_toNat] at back
    rw [toLower, if_pos ascii] at same
    exact h (back same)
  · rcases toLower_beyond (Nat.le_of_not_lt ascii) with beyond | i | k
    · rw [same] at beyond
      exact absurd beyond (by decide)
    · rw [i] at same
      exact absurd same (by decide)
    · rw [k] at same
      exact absurd same (by decide)

/-! ## Names -/

/-- The characters of a name without underscores, in lower case. -/
def foldChars (cs : List Char) : List Char := (cs.filter (· ≠ '_')).map toLower

/-- **A name up to case and underscores.** -/
def folded (s : String) : String := String.ofList (foldChars s.toList)

theorem foldChars_append (a b : List Char) : foldChars (a ++ b) = foldChars a ++ foldChars b := by
  rw [foldChars, filter_append, map_append, foldChars, foldChars]

theorem folded_append (a b : String) : folded (a ++ b) = folded a ++ folded b := by
  rw [folded, String.toList_append, foldChars_append, String.ofList_append, folded, folded]

theorem foldChars_underscore (cs : List Char) : foldChars ('_' :: cs) = foldChars cs := by
  rw [foldChars, filter_cons_of_neg (by decide), foldChars]

theorem foldChars_toLower (c : Char) (cs : List Char) : foldChars (toLower c :: cs) = foldChars (c :: cs) := by
  by_cases under : c = '_'
  · rw [under, show toLower '_' = '_' by decide]
  · rw [foldChars, foldChars, filter_cons_of_pos (by simpa using toLower_ne_underscore under),
      filter_cons_of_pos (by simpa using under), map_cons, map_cons, toLower_toLower]

theorem foldChars_cons_congr {cs ds : List Char} (h : foldChars cs = foldChars ds) :
    foldChars (c :: cs) = foldChars (c :: ds) := by
  rw [← singleton_append, foldChars_append, h, ← foldChars_append, singleton_append]

theorem foldChars_lowerLead (isFirst : Bool) (cs : List Char) : foldChars (lowerLead isFirst cs) = foldChars cs := by
  induction cs generalizing isFirst with
  | nil => rfl
  | cons c cs ih =>
    rw [lowerLead]
    split
    · rfl
    · split
      · rfl
      · rw [foldChars_toLower]
        exact foldChars_cons_congr (ih false)

theorem foldChars_snakeChars (prev : Option Char) (cs : List Char) : foldChars (snakeChars prev cs) = foldChars cs := by
  induction cs generalizing prev with
  | nil => rfl
  | cons c cs ih =>
    have rest := ih (some c)
    simp only [snakeChars]
    split
    · exact foldChars_cons_congr rest
    · split
      · rw [foldChars_underscore, foldChars_toLower]
        exact foldChars_cons_congr rest
      · rw [foldChars_toLower]
        exact foldChars_cons_congr rest

theorem folded_lowerFirst (s : String) : folded (lowerFirst s) = folded s := by
  rw [folded, lowerFirst, String.toList_ofList, foldChars_lowerLead, folded]

theorem folded_snakeCase (s : String) : folded (snakeCase s) = folded s := by
  rw [folded, snakeCase, String.toList_ofList, foldChars_snakeChars, folded]

theorem toLower_of_isDigit (h : c.isDigit = true) : toLower c = c := by
  have digits : ∀ n < 0x80, (Char.ofNat n).isDigit = true → (Char.ofNat n).toLower = Char.ofNat n := by decide
  have ascii : c.toNat < 0x80 := by
    refine Nat.lt_of_not_le fun beyond => ?_
    rw [isDigit_eq_false (by omega)] at h
    cases h
  have same := digits c.toNat ascii
  rw [Char.ofNat_toNat] at same
  rw [toLower, if_pos ascii, same h]

theorem folded_of_digits {s : String} (h : ∀ c ∈ s.toList, c.isDigit = true) : folded s = s := by
  have kept : s.toList.filter (· ≠ '_') = s.toList := by
    refine filter_eq_self.mpr fun c hc => decide_eq_true ?_
    rintro rfl
    exact absurd (h _ hc) (by decide)
  have lower : s.toList.map toLower = s.toList := by
    rw [map_congr_left fun c hc => toLower_of_isDigit (h c hc), map_id']
  rw [folded, foldChars, kept, lower, String.ofList_toList]

end Polyglot.Text

namespace Polyglot.Target

open Text

/-- **In TypeScript names stay the same up to case and underscores**: reserved words get an underscore. -/
theorem folded_fitted_typescript (name : String) : folded (typescript.fitted name) = folded name := by
  have fits : folded (typescript.fit name) = folded name := folded_lowerFirst name
  rw [fitted, identifier]
  split
  · rw [escape, folded_append, fits, show folded "_" = "" by decide]
    all_goals simp
  · exact fits

/-- A name in Rust without the mark of a reserved word. -/
def unescaped (s : String) : String :=
  match s.toList with
  | 'r' :: '#' :: cs => String.ofList cs
  | _ => s

theorem unescaped_of_not_mem {s : String} (plain : '#' ∉ s.toList) : unescaped s = s := by
  unfold unescaped
  split
  · next cs same => simp [same] at plain
  · rfl

theorem unescaped_append (s : String) : unescaped ("r#" ++ s) = s := by
  unfold unescaped
  rw [String.toList_append]
  exact String.ofList_toList

theorem mark_not_mem_fit {name : String} (isName : IsName name.toList) : '#' ∉ (rust.fit name).toList := by
  intro mem
  exact absurd ((isName_fit .rust isName).1.2 _ mem) (by decide)

/-- **In Rust names stay the same up to case and underscores**, without the mark of a reserved word. -/
theorem folded_unescaped_fitted {name suffix : String} (isName : IsName name.toList) (plain : '#' ∉ suffix.toList) :
    folded (unescaped (rust.fitted name ++ suffix)) = folded name ++ folded suffix := by
  have word := mark_not_mem_fit isName
  have fits : folded (rust.fit name) = folded name := folded_snakeCase name
  rw [fitted, identifier]
  split
  · rw [escape, String.append_assoc, unescaped_append, folded_append, fits]
  · have whole : '#' ∉ (rust.fit name ++ suffix).toList := by
      rw [String.toList_append]
      exact fun mem => (List.mem_append.mp mem).elim word plain
    rw [unescaped_of_not_mem whole, folded_append, fits]

end Polyglot.Target
