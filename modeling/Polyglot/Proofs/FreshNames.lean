import Polyglot.Proofs.Keys
import Polyglot.Proofs.Writing.Basic

/-!
# Fresh names

A temporary is named by its hint and a number. Each hint counts for itself, so that names with one hint have different numbers.
Names with different hints differ because a hint that does not end in a digit can be read off the name.
-/

namespace Polyglot

open List

/-- The text does not end in a digit. -/
def IsHint (s : String) : Prop := ∀ c ∈ s.toList.getLast?, c.isDigit = false

namespace IsHint

variable {s t : String} {m n : Nat}

theorem behind (h : IsHint s) : IsHint ("__" ++ s) := by
  intro c last
  rw [String.toList_append, getLast?_append] at last
  cases own : s.toList.getLast? with
  | none =>
    rw [own] at last
    cases last
    rfl
  | some d => exact h c (by simpa [own] using last)

theorem eq_nil {front back more : List Char} (h : IsHint s) (whole : s.toList = front ++ back)
    (digits : (Text.decimal n).toList = back ++ more) : back = [] := by
  rcases eq_nil_or_concat back with nil | ⟨init, last, rfl⟩
  · exact nil
  · have inside : last ∈ (Text.decimal n).toList := by simp [digits]
    have digit := Text.isDigit_of_mem_decimal inside
    rw [h last (by simp [whole])] at digit
    cases digit

/-- **A hint and its number** can be read off the name. -/
theorem append_decimal_inj (hs : IsHint s) (ht : IsHint t) (same : s ++ Text.decimal m = t ++ Text.decimal n) :
    s = t ∧ m = n := by
  have chars := congrArg String.toList same
  rw [String.toList_append, String.toList_append] at chars
  have hints : s.toList = t.toList := by
    rcases append_eq_append_iff.mp chars with ⟨back, whole, digits⟩ | ⟨back, whole, digits⟩
    · rw [whole, ht.eq_nil whole digits, append_nil]
    · rw [whole, hs.eq_nil whole digits, append_nil]
  cases String.toList_injective hints
  exact ⟨rfl, Text.decimal_injective ((String.append_right_inj s).mp same)⟩

end IsHint

theorem Temporaries.count_next (t : Temporaries) (hint other : String) :
    (t.next hint).2.count other = if other = hint then t.count hint + 1 else t.count other := by
  rw [count, next, lookup_assocSet]
  split <;> rfl

namespace Emit

/-- **Temporaries are fresh**: whatever was handed out before, a row of hints gets one name for each of them, with a number that
the hint has not had yet, and no name twice. -/
theorem temporaries_fresh {hints : List String} (plain : ∀ hint ∈ hints, IsHint hint) (scene : Scene) (sheet : Sheet) :
    ∃ names sheet', (hints.mapM temporary) scene sheet = (.ok names, sheet') ∧ names.Nodup ∧
      Forall₂ (fun hint name => ∃ n, sheet.temporaries.count ("__" ++ hint) < n ∧ name = "__" ++ hint ++ Text.decimal n)
        hints names := by
  induction hints generalizing sheet with
  | nil => exact ⟨[], sheet, rfl, .nil, .nil⟩
  | cons hint hints ih =>
    obtain ⟨own, others⟩ := forall_mem_cons.mp plain
    let next := sheet.temporaries.next ("__" ++ hint)
    obtain ⟨names, last, run, distinct, numbered⟩ := ih others { sheet with temporaries := next.2 }
    have step : temporary hint scene sheet = (.ok next.1, { sheet with temporaries := next.2 }) := rfl
    refine ⟨next.1 :: names, last, ?_, nodup_cons.mpr ⟨fun mem => ?_, distinct⟩, ?_⟩
    · rw [mapM_cons, bind_ok step, bind_ok run]
      rfl
    · -- A later name with this hint has a number above this one.
      obtain ⟨other, hmem, n, more, same⟩ := exists_mem_of_forall₂ numbered mem
      obtain ⟨hint, rfl⟩ := own.behind.append_decimal_inj (others other hmem).behind same
      rw [← hint, Temporaries.count_next, if_pos rfl] at more
      exact Nat.lt_irrefl _ more
    · refine .cons ⟨_, Nat.lt_succ_self _, rfl⟩ (numbered.imp fun other name => ?_)
      rintro ⟨n, more, rfl⟩
      rw [Temporaries.count_next] at more
      exact ⟨n, by grind, rfl⟩

theorem temporaries_fresh_init : (∀ hint ∈ ["init", "e", "init"], IsHint hint) ∧
    ∃ names sheet', (["init", "e", "init"].mapM temporary) (.bare .java) (Scene.bare .java).blank = (.ok names, sheet') ∧
      names.Nodup := by
  have plain : ∀ hint ∈ ["init", "e", "init"], IsHint hint := by simp [IsHint]
  obtain ⟨names, sheet', run, distinct, -⟩ := temporaries_fresh plain (.bare .java) (Scene.bare .java).blank
  exact ⟨plain, names, sheet', run, distinct⟩

end Emit

end Polyglot
