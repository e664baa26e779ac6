import Polyglot.Proofs.Basic
import Polyglot.Type.Index

/-!
# Keys of definitions

The key of a definition is its qualified name, and behind a backtick the number of its type parameters. Two definitions with
one key, whose names have no backtick, have the same name and as many parameters. The index is *sound* when it has each
definition under its own key.
-/

namespace Polyglot

open List

namespace Text

theorem decimal_injective {m n : Nat} (h : decimal m = decimal n) : m = n := by
  have digits : Nat.toDigits 10 m = Nat.toDigits 10 n := String.ofList_injective h
  rw [← Nat.ofDigitChars_ten_toDigits (n := m), digits, Nat.ofDigitChars_ten_toDigits]

theorem isDigit_of_mem_decimal {c : Char} {n : Nat} (h : c ∈ (decimal n).toList) : c.isDigit = true := by
  rw [decimal, String.toList_ofList] at h
  exact Nat.isDigit_of_mem_toDigits (by decide) (by decide) h

variable {sep : Char} {s a b : String}

/-- What stands before and behind the last separator is what a text is cut into. -/
theorem cutLast?_append (whole : s.toList = a.toList ++ sep :: b.toList) (last : sep ∉ b.toList) :
    cutLast? sep s = some (a, b) := by
  have back : ∀ c ∈ b.toList.reverse, (c ≠ sep : Bool) = true := by
    intro c hc
    simpa using ne_of_mem_of_not_mem (mem_reverse.mp hc) last
  have tail : (b.toList.reverse ++ sep :: a.toList.reverse).takeWhile (· ≠ sep) = b.toList.reverse := by
    rw [takeWhile_append_of_pos back, takeWhile_cons_of_neg (by simp), append_nil]
  have chars : s.toList.reverse = b.toList.reverse ++ sep :: a.toList.reverse := by simp [whole]
  simp only [cutLast?, chars, tail, drop_left, reverse_reverse, String.ofList_toList]

theorem cutLast?_of_not_mem (free : sep ∉ s.toList) : cutLast? sep s = none := by
  have back : ∀ c ∈ s.toList.reverse, (c ≠ sep : Bool) = true := by
    intro c hc
    simpa using ne_of_mem_of_not_mem (mem_reverse.mp hc) free
  have all := @takeWhile_append_of_pos _ _ _ [] back
  rw [takeWhile_nil, append_nil] at all
  simp only [cutLast?, all, drop_length]

/-- A text is cut at the last place where the separator stands. -/
theorem exists_cutLast? (mem : sep ∈ s.toList) :
    ∃ a b, cutLast? sep s = some (a, b) ∧ s.toList = a.toList ++ sep :: b.toList ∧ sep ∉ b.toList := by
  obtain ⟨back, front, turned, free⟩ := eq_append_cons_of_mem (mem_reverse.mpr mem)
  have whole : s.toList = (String.ofList front.reverse).toList ++ sep :: (String.ofList back.reverse).toList := by
    simpa using congrArg reverse turned
  have last : sep ∉ (String.ofList back.reverse).toList := by simpa using free
  exact ⟨_, _, cutLast?_append whole last, whole, last⟩

theorem cutLast?_eq_some (h : cutLast? sep s = some (a, b)) :
    s.toList = a.toList ++ sep :: b.toList ∧ sep ∉ b.toList := by
  by_cases mem : sep ∈ s.toList
  · obtain ⟨a', b', cut, parts⟩ := exists_cutLast? mem
    cases h.symm.trans cut
    exact parts
  · cases h.symm.trans (cutLast?_of_not_mem mem)

theorem cutLast?_eq_none (h : cutLast? sep s = none) : sep ∉ s.toList := by
  intro mem
  obtain ⟨_, _, cut, -⟩ := exists_cutLast? mem
  cases h.symm.trans cut

end Text

/-- A name whose only dot is not its first character is put together again from its namespace and its last part. -/
theorem qualify_splitQualified_or (name : String) :
    qualify (splitQualified name).1 (splitQualified name).2 = name ∨ ∃ rest, name.toList = '.' :: rest ∧ '.' ∉ rest := by
  unfold splitQualified
  cases cut : Text.cutLast? '.' name with
  | none => exact .inl rfl
  | some parts =>
    obtain ⟨space, last⟩ := parts
    obtain ⟨whole, alone⟩ := Text.cutLast?_eq_some cut
    by_cases inside : space = ""
    · exact .inr ⟨last.toList, by rw [whole, inside]; rfl, alone⟩
    · rw [Option.getD_some, qualify, if_neg inside]
      exact .inl (String.toList_injective (by simp [whole]))

theorem qualify_splitQualified {name : String} (h : name.toList.head? ≠ some '.') :
    qualify (splitQualified name).1 (splitQualified name).2 = name :=
  (qualify_splitQualified_or name).resolve_right fun ⟨_, dotted, _⟩ => h (congrArg head? dotted)

theorem dot_not_mem_splitQualified (name : String) : '.' ∉ (splitQualified name).2.toList := by
  unfold splitQualified
  cases cut : Text.cutLast? '.' name with
  | none => exact Text.cutLast?_eq_none cut
  | some parts => exact (Text.cutLast?_eq_some cut).2

/-- The mark between a name and the number of its type parameters. -/
abbrev arityMark : Char := '\x60'

theorem arityMark_not_mem_decimal (n : Nat) : arityMark ∉ (Text.decimal n).toList := by
  intro h
  exact absurd (Text.isDigit_of_mem_decimal h) (by decide)

theorem toList_arityKey (name : String) (n : Nat) :
    (arityKey name n).toList =
      if n = 0 then name.toList else name.toList ++ arityMark :: (Text.decimal n).toList := by
  unfold arityKey
  split <;> simp

/-- Behind each mark of the text there is a dot, so that its last part is a name. -/
def EndsInName (text : List Char) : Prop := ∀ a b, text = a ++ arityMark :: b → '.' ∈ b

theorem endsInName_of_not_mem {text : List Char} (h : arityMark ∉ text) : EndsInName text := by
  rintro a b rfl
  exact absurd (mem_append_right _ mem_cons_self) h

theorem endsInName_qualified (space : List Char) {name : List Char} (h : arityMark ∉ name) :
    EndsInName (space ++ '.' :: name) := by
  intro a b hab
  rcases append_eq_append_iff.mp hab with ⟨c, rfl, hc⟩ | ⟨c, rfl, hc⟩
  · cases c with
    | nil => cases hc
    | cons d c =>
      cases hc
      exact absurd (mem_append_right _ mem_cons_self) h
  · cases c with
    | nil => cases hc
    | cons d c =>
      cases hc
      exact mem_append_right _ mem_cons_self

/-- **A key shows how many type parameters there are.** -/
theorem arity_eq_of_arityKey_eq {p q : String} {m n : Nat} (hp : EndsInName p.toList)
    (hq : arityMark ∉ q.toList) (h : arityKey p m = arityKey q n) : m = n := by
  have chars : (arityKey p m).toList = (arityKey q n).toList := by rw [h]
  rw [toList_arityKey, toList_arityKey] at chars
  split at chars
  · next hm =>
    split at chars
    · next hn => rw [hm, hn]
    · have dot := hp _ _ chars
      exact absurd (Text.isDigit_of_mem_decimal dot) (by decide)
  · split at chars
    · rw [← chars] at hq
      exact absurd (mem_append_right _ mem_cons_self) hq
    · obtain ⟨-, -, digits⟩ := (append_cons_inj_of_notMem hq (arityMark_not_mem_decimal n)).mp chars.symm
      exact (Text.decimal_injective (String.toList_injective digits)).symm

/-! ## The index -/

theorem lookup_assocSet {β : Type} (k : String) (v : β) (rows : List (String × β)) (k' : String) :
    (assocSet k v rows).lookup k' = if k' = k then some v else rows.lookup k' := by
  induction rows with
  | nil => exact lookup_cons_ite k v [] k'
  | cons row rows ih =>
    obtain ⟨l, w⟩ := row
    by_cases here : l = k
    · subst here
      rw [assocSet, if_pos (beq_self_eq_true l), lookup_cons_ite, lookup_cons_ite]
      split <;> rfl
    · rw [assocSet, if_neg (by simpa using here), lookup_cons_ite, lookup_cons_ite, ih]
      split
      · next same => rw [if_neg (same ▸ here)]
      · rfl

/-- A type as it is entered under a key: a built-in one, or a definition under its own key. -/
def Ty.IsRow (key : String) : Ty → Prop
  | named h => h.key = key ∧ arityMark ∉ h.qualified.toList
  | closed _ _ _ _ | array _ => False
  | _ => True

instance (key : String) : (t : Ty) → Decidable (t.IsRow key)
  | .named h => inferInstanceAs (Decidable (h.key = key ∧ arityMark ∉ h.qualified.toList))
  | .closed _ _ _ _ | .array _ => .isFalse id
  | .void | .null | .object | .dynamic | .string | .primitive _ | .param _ => .isTrue trivial

namespace TypeIndex

variable {idx : TypeIndex}

def Knows (idx : TypeIndex) (h : TypeHead) : Prop := idx.byKey.lookup h.key = some (.named h)

/-- **A sound index**: built-in types and definitions, each under its own key. -/
structure Sound (idx : TypeIndex) : Prop where
  builtin : ∀ k t, Ty.builtins.lookup k = some t → idx.byKey.lookup k = some t
  row : ∀ k t, idx.byKey.lookup k = some t → t.IsRow k

variable {h : TypeHead} {n : Nat}

theorem Sound.knows (sound : idx.Sound) {k : String} (found : idx.byKey.lookup k = some (.named h)) : idx.Knows h := by
  obtain ⟨key, -⟩ := sound.row k _ found
  rw [Knows, key]
  exact found

theorem sound_empty : ({} : TypeIndex).Sound where
  builtin := fun _ _ h => h
  row := by
    have all : ∀ row ∈ Ty.builtins, row.2.IsRow row.1 := by decide
    intro k t found
    exact all (k, t) (mem_of_lookup found)

theorem lookup_add (idx : TypeIndex) (h : TypeHead) (k : String) :
    (idx.add h).byKey.lookup k = if k = h.key then some (.named h) else idx.byKey.lookup k :=
  lookup_assocSet h.key _ idx.byKey k

theorem knows_add (idx : TypeIndex) (h : TypeHead) : (idx.add h).Knows h := by
  rw [Knows, lookup_add, if_pos rfl]

theorem Knows.add {h' : TypeHead} (known : idx.Knows h) (fresh : idx.byKey.lookup h'.key = none) : (idx.add h').Knows h := by
  rw [Knows, lookup_add, if_neg]
  · exact known
  · intro same
    rw [← same, known] at fresh
    cases fresh

theorem Sound.add (sound : idx.Sound) (fresh : idx.byKey.lookup h.key = none) (plain : arityMark ∉ h.qualified.toList) :
    (idx.add h).Sound where
  builtin := by
    intro k t found
    rw [lookup_add, if_neg]
    · exact sound.builtin k t found
    · rintro rfl
      rw [sound.builtin _ t found] at fresh
      cases fresh
  row := by
    intro k t found
    rw [lookup_add] at found
    split at found
    · next here =>
      cases found
      exact ⟨here.symm, plain⟩
    · exact sound.row k t found

/-- **A definition that is found has as many type parameters as were asked for.** -/
theorem Sound.arity_eq (sound : idx.Sound) {name : String} (plain : EndsInName name.toList)
    (found : idx.find? name n = some (.named h)) : h.params.length = n := by
  obtain ⟨key, mark⟩ := sound.row _ _ found
  exact (arity_eq_of_arityKey_eq plain mark key.symm).symm

/-! ## Numbers of type parameters -/

/-- The numbers of type parameters that a qualified name is declared with. -/
def aritiesOf (idx : TypeIndex) (qualified : String) : List Nat := (idx.arities.lookup qualified).getD []

theorem aritiesOf_add (idx : TypeIndex) (h : TypeHead) (q : String) :
    (idx.add h).aritiesOf q =
      if q = h.qualified ∧ h.arity ∉ idx.aritiesOf q then idx.aritiesOf q ++ [h.arity] else idx.aritiesOf q := by
  unfold aritiesOf add
  dsimp only
  by_cases here : q = h.qualified
  · subst here
    by_cases known : h.arity ∈ (idx.arities.lookup h.qualified).getD []
    · rw [if_pos (by simpa using known), if_neg fun both => both.2 known]
    · rw [if_neg (by simpa using known), if_pos ⟨rfl, known⟩, lookup_assocSet, if_pos rfl, Option.getD_some]
  · rw [if_neg (fun both : q = h.qualified ∧ _ => here both.1)]
    split
    · rfl
    · rw [lookup_assocSet, if_neg here]

theorem mem_aritiesOf_add {q : String} (h : TypeHead) (mem : n ∈ idx.aritiesOf q) : n ∈ (idx.add h).aritiesOf q := by
  rw [aritiesOf_add]
  split
  · exact mem_append_left _ mem
  · exact mem

theorem arity_mem_aritiesOf_add (idx : TypeIndex) (h : TypeHead) : h.arity ∈ (idx.add h).aritiesOf h.qualified := by
  rw [aritiesOf_add]
  split
  · simp
  · next known => simpa using known

/-- A name that is declared with two numbers of type parameters is ambiguous. -/
theorem collides_of_mem {m : Nat} (hm : m ∈ idx.aritiesOf h.qualified) (hn : n ∈ idx.aritiesOf h.qualified) (ne : m ≠ n) :
    idx.collides (.named h) = true := by
  change decide (1 < (idx.aritiesOf h.qualified).length) = true
  rw [decide_eq_true_eq]
  generalize idx.aritiesOf h.qualified = arities at hm hn
  match arities with
  | [k] => exact absurd ((mem_singleton.mp hm).trans (mem_singleton.mp hn).symm) ne
  | _ :: _ :: _ => exact Nat.succ_lt_succ (Nat.succ_pos _)

end TypeIndex

end Polyglot
