import Polyglot.Proofs.Basic
import Polyglot.Type.Expr

/-!
# The grammar of type expressions

A type expression is a name, its arguments in angle brackets if it has any, and a pair of square brackets for each array;
spaces may stand before each token and behind the last. The parser accepts exactly the texts of this grammar (`Written`) and
gives their tree.

The characters of a name are those that are read to the end byte by byte: in ASCII the letters, the digits, the underscore and
the dot.
-/

namespace Polyglot

open List

namespace TypeExpr

/-! ## The grammar -/

/-- Spaces between tokens. -/
def IsGap (cs : List Char) : Prop := ∀ c ∈ cs, c = ' '

/-- A name whose characters are all of a kind. -/
def IsRun (p : Char → Bool) (cs : List Char) : Prop := cs ≠ [] ∧ ∀ c ∈ cs, p c = true

/-- The front of a text is pairs of square brackets, as many as there are arrays. -/
inductive Ranks : List Char → Nat → List Char → Prop where
  | none {rest : List Char} : Ranks rest 0 rest
  | more {gap text rest : List Char} {n : Nat} (isGap : IsGap gap) (others : Ranks text n rest) :
      Ranks (gap ++ '[' :: ']' :: text) (n + 1) rest

/-- **The front of a text is type expressions** with commas between them, with names of a kind of characters. -/
inductive Written (p : Char → Bool) : List Char → List TypeExpr → List Char → Prop where
  | plain {gap name text rest : List Char} {n : Nat} (isGap : IsGap gap) (isName : IsRun p name)
      (arrays : Ranks text n rest) : Written p (gap ++ name ++ text) [⟨String.ofList name, [], n⟩] rest
  | applied {gap name before list after text rest : List Char} {args : List TypeExpr} {n : Nat} (isGap : IsGap gap)
      (isName : IsRun p name) (isBefore : IsGap before) (items : Written p list args (after ++ '>' :: text))
      (isAfter : IsGap after) (arrays : Ranks text n rest) :
      Written p (gap ++ name ++ before ++ '<' :: list) [⟨String.ofList name, args, n⟩] rest
  | more {text gap list rest : List Char} {e : TypeExpr} {es : List TypeExpr}
      (item : Written p text [e] (gap ++ ',' :: list)) (isGap : IsGap gap) (items : Written p list es rest) :
      Written p text (e :: es) rest

/-- A text of the grammar with spaces behind it. -/
def Derives (p : Char → Bool) (s : String) (e : TypeExpr) : Prop := ∃ gap, IsGap gap ∧ Written p s.toList [e] gap

section Grammar

variable {p q : Char → Bool} {text rest : List Char} {es : List TypeExpr}

theorem isGap_nil : IsGap [] := by simp [IsGap]

theorem IsGap.append {g g' : List Char} (h : IsGap g) (h' : IsGap g') : IsGap (g ++ g') := by
  intro c hc
  exact (mem_append.mp hc).elim (h c) (h' c)

theorem isGap_takeWhile (cs : List Char) : IsGap (cs.takeWhile (· = ' ')) := by
  intro c hc
  simpa using all_eq_true.mp all_takeWhile c hc

/-- Each pair of brackets takes a character at least. -/
theorem Ranks.front {n : Nat} (h : Ranks text n rest) : ∃ front, text = front ++ rest ∧ n ≤ front.length := by
  induction h with
  | none => exact ⟨[], rfl, Nat.le_refl _⟩
  | @more gap _ _ _ _ _ ih =>
    obtain ⟨front, rfl, le⟩ := ih
    refine ⟨gap ++ '[' :: ']' :: front, by simp, ?_⟩
    simp only [length_append, length_cons]
    omega

/-- Each expression takes a character at least. -/
theorem Written.front (h : Written p text es rest) : ∃ front, text = front ++ rest ∧ es.length ≤ front.length := by
  induction h with
  | @plain gap name _ _ _ _ isName arrays =>
    obtain ⟨front, rfl, -⟩ := arrays.front
    refine ⟨gap ++ name ++ front, by simp, ?_⟩
    have long := length_pos_iff.mpr isName.1
    simp only [length_append, length_cons, length_nil]
    omega
  | @applied gap name before _ after _ _ _ _ _ _ _ _ _ arrays ih =>
    obtain ⟨front, rfl, -⟩ := arrays.front
    obtain ⟨list, rfl, -⟩ := ih
    refine ⟨gap ++ name ++ before ++ '<' :: list ++ after ++ '>' :: front, by simp, ?_⟩
    simp
    omega
  | @more _ gap _ _ _ _ _ _ _ first second =>
    obtain ⟨list, rfl, le⟩ := second
    obtain ⟨front, rfl, -⟩ := first
    refine ⟨front ++ gap ++ ',' :: list, by simp, ?_⟩
    simp only [length_append, length_cons]
    omega

theorem Written.ne_nil (h : Written p text es rest) : es ≠ [] := by
  cases h <;> exact cons_ne_nil _ _

/-- The kind of the characters that names are made of counts for the characters of the text only. -/
theorem Written.mono (h : Written p text es rest) (weaker : ∀ c ∈ text, p c = true → q c = true) : Written q text es rest := by
  induction h with
  | plain isGap isName arrays =>
    refine .plain isGap ⟨isName.1, fun c hc => weaker c ?_ (isName.2 c hc)⟩ arrays
    simp [hc]
  | applied isGap isName isBefore _ isAfter arrays ih =>
    refine .applied isGap ⟨isName.1, fun c hc => weaker c ?_ (isName.2 c hc)⟩ isBefore
      (ih fun c hc => weaker c ?_) isAfter arrays
    all_goals simp [hc]
  | more item isGap _ first second =>
    obtain ⟨front, rfl, -⟩ := item.front
    refine .more (first weaker) isGap (second fun c hc => weaker c ?_)
    simp [hc]

end Grammar

/-! ## Tokens -/

/-- The characters that a name is read through. -/
def isReadable (c : Char) : Bool := (unreadBytes c).isEmpty

section Tokens

variable {r r' : Rest} {cs rest : List Char}

variable {gap name mark : List Char} {c : Char}

theorem dropWhile_gap (isGap : IsGap gap) (ends : ∀ c ∈ rest.head?, c ≠ ' ') : (gap ++ rest).dropWhile (· = ' ') = rest := by
  refine (span_append (p := (· = ' ')) (fun c hc => by simpa using isGap c hc) fun c hc => ?_).2
  simpa using ends c hc

theorem skipSpaces_chars (isGap : IsGap gap) (ends : ∀ c ∈ rest.head?, c ≠ ' ') :
    ({ chars := gap ++ rest } : Rest).skipSpaces = { chars := rest } := by
  simp [Rest.skipSpaces, dropWhile_gap isGap ends]

/-- A token stands behind a gap. -/
theorem accept?_eq_some_iff (solid : c ≠ ' ') : r.accept? (c :: mark) = some r' ↔
      r.bytes = [] ∧ r'.bytes = [] ∧ ∃ gap, r.chars = gap ++ (c :: mark) ++ r'.chars ∧ IsGap gap := by
  obtain ⟨bytes, chars⟩ := r
  obtain ⟨bytes', rest⟩ := r'
  cases bytes with
  | cons b bytes => simp [Rest.accept?, Rest.skipSpaces]
  | nil =>
    simp only [Rest.accept?, Rest.skipSpaces, isEmpty_nil, if_true, true_and]
    constructor
    · intro taken
      obtain ⟨_, found, rest⟩ := Option.map_eq_some_iff.mp taken
      cases rest
      refine ⟨rfl, chars.takeWhile (· = ' '), ?_, isGap_takeWhile chars⟩
      rw [append_assoc, ← Text.eq_append_of_afterChars? found, takeWhile_append_dropWhile]
    · rintro ⟨rfl, gap, rfl, isGap⟩
      rw [append_assoc, dropWhile_gap isGap (by simpa using solid), Text.afterChars?_append]
      rfl

theorem accept?_eq_none (isGap : IsGap gap) (ends : ∀ d ∈ rest.head?, d ≠ ' ' ∧ d ≠ c) :
    ({ chars := gap ++ rest } : Rest).accept? (c :: mark) = none := by
  rw [Rest.accept?, skipSpaces_chars isGap fun d hd => (ends d hd).1]
  cases rest with
  | nil => rfl
  | cons d rest =>
    have other : c ≠ d := (ends d rfl).2.symm
    simp [Text.afterChars?, other]

theorem takeName_append (readable : ∀ c ∈ name, isReadable c = true)
    (ends : ∀ c ∈ rest.head?, isReadable c = false ∧ (unreadBytes c).length = byteCount c) :
    takeName (name ++ rest) = (name, { chars := rest }) := by
  induction name with
  | nil =>
    cases rest with
    | nil => rfl
    | cons c rest =>
      obtain ⟨unread, whole⟩ := ends c rfl
      rw [nil_append, takeName]
      split
      · next none => simp [isReadable, none] at unread
      · rw [if_pos whole]
  | cons c name ih =>
    have here : unreadBytes c = [] := by simpa [isReadable] using readable c mem_cons_self
    rw [cons_append, takeName, here, ih fun c hc => readable c (mem_cons_of_mem _ hc)]

/-- A name that ends between two characters is what stands there. -/
theorem takeName_eq (taken : takeName cs = (name, r)) (between : r.bytes = []) :
    cs = name ++ r.chars ∧ ∀ c ∈ name, isReadable c = true := by
  induction cs generalizing name with
  | nil =>
    cases taken
    simp
  | cons c cs ih =>
    rw [takeName] at taken
    split at taken
    · next read =>
      cases taken
      obtain ⟨rest, readable⟩ := ih rfl
      refine ⟨congrArg (c :: ·) rest, forall_mem_cons.mpr ⟨?_, readable⟩⟩
      simp [isReadable, read]
    · next unread =>
      split at taken
      · cases taken
        simp
      · cases taken
        exact absurd between unread

end Tokens

/-! ## What is read is written -/

section Sound

variable {r r' : Rest}

theorem skipSpaces_reads (between : r.skipSpaces.bytes = []) :
    r.bytes = [] ∧ ∃ gap, IsGap gap ∧ r.chars = gap ++ r.skipSpaces.chars := by
  obtain ⟨bytes, chars⟩ := r
  cases bytes with
  | cons b bytes => cases between
  | nil => exact ⟨rfl, chars.takeWhile (· = ' '), isGap_takeWhile chars, takeWhile_append_dropWhile.symm⟩

/-- No brackets at all are read where only spaces are. -/
theorem ranks_skipSpaces (between : r.skipSpaces.bytes = []) :
    r.bytes = [] ∧ ∃ gap, IsGap gap ∧ Ranks r.chars 0 (gap ++ r.skipSpaces.chars) := by
  obtain ⟨whole, gap, isGap, chars⟩ := skipSpaces_reads between
  exact ⟨whole, gap, isGap, chars ▸ .none⟩

variable {fuel : Nat}

theorem takeArrays_reads {n : Nat} (taken : takeArrays fuel r = (n, r')) (between : r'.bytes = []) :
    r.bytes = [] ∧ ∃ gap, IsGap gap ∧ Ranks r.chars n (gap ++ r'.chars) := by
  induction fuel generalizing r n with
  | zero =>
    cases taken
    exact ranks_skipSpaces between
  | succ fuel ih =>
    rw [takeArrays] at taken
    split at taken
    · next r₁ accepted =>
      obtain ⟨whole, -, before, chars, isBefore⟩ := (accept?_eq_some_iff (by decide)).mp accepted
      cases taken
      obtain ⟨-, gap, isGap, arrays⟩ := ih rfl
      refine ⟨whole, gap, isGap, ?_⟩
      rw [chars, append_assoc]
      exact .more isBefore arrays
    · cases taken
      exact ranks_skipSpaces between

/-- Expressions are read that are written; spaces behind them may be read, too. -/
def Reads (r : Rest) (es : List TypeExpr) (rest : List Char) : Prop :=
  r.bytes = [] ∧ ∃ gap, IsGap gap ∧ Written isReadable r.chars es (gap ++ rest)

variable {text : String}

theorem takeArgs_reads {parse : Rest → Except Problem (TypeExpr × Rest)}
    (each : ∀ r e r', parse r = .ok (e, r') → r'.bytes = [] → Reads r [e] r'.chars) {es : List TypeExpr}
    (run : takeArgs text parse fuel r = .ok (es, r')) : r'.bytes = [] ∧ Reads r es ('>' :: r'.chars) := by
  induction fuel generalizing r es with
  | zero => cases run
  | succ fuel ih =>
    obtain ⟨⟨e, r₁⟩, first, run⟩ := bind_eq_ok.mp run
    -- What is read up to a mark behind it.
    have read {c : Char} {r₂ : Rest} (solid : c ≠ ' ') (accepted : r₁.accept? [c] = some r₂) :
        r₂.bytes = [] ∧ Reads r [e] (c :: r₂.chars) := by
      obtain ⟨between, closed, before, chars, isBefore⟩ := (accept?_eq_some_iff solid).mp accepted
      obtain ⟨whole, gap, isGap, item⟩ := each r e r₁ first between
      refine ⟨closed, whole, gap ++ before, isGap.append isBefore, ?_⟩
      simpa [chars] using item
    dsimp only at run
    split at run
    · next r₂ accepted =>
      cases run
      exact read (by decide) accepted
    · split at run
      · next r₂ accepted =>
        obtain ⟨⟨es', r₃⟩, later, run⟩ := bind_eq_ok.mp run
        cases run
        obtain ⟨-, whole, gap, isGap, item⟩ := read (by decide) accepted
        obtain ⟨closed, -, gap', isGap', items⟩ := ih later
        exact ⟨closed, whole, gap', isGap', .more item isGap items⟩
      · cases run

theorem parseWithin_reads {e : TypeExpr} (run : parseWithin text fuel r = .ok (e, r')) (between : r'.bytes = []) :
    Reads r [e] r'.chars := by
  induction fuel generalizing r e r' with
  | zero => cases run
  | succ fuel ih =>
    rw [parseWithin] at run
    dsimp only at run
    generalize taken : (if r.skipSpaces.bytes.isEmpty then takeName r.skipSpaces.chars else ([], r.skipSpaces)) = front
      at run
    obtain ⟨name, after⟩ := front
    -- A name that ends between two characters, with the spaces before it.
    have named (between : after.bytes = []) (some : (name.isEmpty && after.bytes.isEmpty) = false) :
        r.bytes = [] ∧ ∃ gap, r.chars = gap ++ name ++ after.chars ∧ IsGap gap ∧ IsRun isReadable name := by
      split at taken
      · next whole =>
        obtain ⟨whole, gap, isGap, chars⟩ := skipSpaces_reads (isEmpty_iff.mp whole)
        obtain ⟨front, readable⟩ := takeName_eq taken between
        refine ⟨whole, gap, ?_, isGap, ?_, readable⟩
        · rw [chars, front, append_assoc]
        · simpa [between] using some
      · next cut =>
        cases taken
        simp [between] at cut
    split at run
    · cases run
    · next some =>
      have some := Bool.eq_false_iff.mpr some
      split at run
      · next r₁ accepted =>
        obtain ⟨⟨args, r₂⟩, list, run⟩ := bind_eq_ok.mp run
        cases run
        obtain ⟨whole, -, before, chars, isBefore⟩ := (accept?_eq_some_iff (by decide)).mp accepted
        obtain ⟨-, gap, isGap, arrays⟩ := takeArrays_reads rfl between
        obtain ⟨-, -, after', isAfter, items⟩ := takeArgs_reads (fun _ _ _ => ih) list
        obtain ⟨start, lead, front, isLead, isName⟩ := named whole some
        refine ⟨start, gap, isGap, ?_⟩
        rw [front, chars, append_assoc before, ← append_assoc]
        exact .applied isLead isName isBefore items isAfter arrays
      · cases run
        obtain ⟨whole, gap, isGap, arrays⟩ := takeArrays_reads rfl between
        obtain ⟨start, lead, front, isLead, isName⟩ := named whole some
        exact ⟨start, gap, isGap, front ▸ .plain isLead isName arrays⟩

end Sound

/-! ## What is written is read -/

section Complete

variable {gap cs rest tail : List Char} {text : String} {n : Nat}

/-- What may stand behind a type expression. -/
def Follows (rest : List Char) : Prop := ∀ c ∈ rest.head?, c = ',' ∨ c = '>'

theorem Follows.ne (h : Follows rest) {c d : Char} (hc : c ∈ rest.head?) (comma : d ≠ ',') (bracket : d ≠ '>') : c ≠ d := by
  rcases h c hc with rfl | rfl
  · exact comma.symm
  · exact bracket.symm

/-- Behind a name, and behind arguments, the next token is the bracket of an array, or none of the expression. -/
theorem Ranks.split (h : Ranks cs n (gap ++ rest)) (isGap : IsGap gap) (follows : Follows rest) :
    ∃ before tail, cs = before ++ tail ∧ IsGap before ∧ ∀ c ∈ tail.head?, c ∈ ['[', ',', '>'] := by
  cases h with
  | none => exact ⟨gap, rest, rfl, isGap, fun c hc => by rcases follows c hc with rfl | rfl <;> simp⟩
  | @more before ranks _ _ isBefore _ => exact ⟨before, '[' :: ']' :: ranks, rfl, isBefore, by simp⟩

theorem takeArrays_of_ranks {fuel : Nat} (h : Ranks cs n (gap ++ rest)) (enough : n ≤ fuel) (isGap : IsGap gap)
    (follows : Follows rest) : takeArrays fuel { chars := cs } = (n, { chars := rest }) := by
  generalize behind : gap ++ rest = out at h
  induction h generalizing fuel with
  | none =>
    subst behind
    have ends (c : Char) (hc : c ∈ rest.head?) : c ≠ ' ' ∧ c ≠ '[' :=
      ⟨follows.ne hc (by decide) (by decide), follows.ne hc (by decide) (by decide)⟩
    have spaces := skipSpaces_chars isGap fun c hc => (ends c hc).1
    cases fuel with
    | zero => rw [takeArrays, spaces]
    | succ fuel => rw [takeArrays, accept?_eq_none isGap ends, spaces]
  | @more before ranks _ n isBefore _ ih =>
    obtain ⟨fuel, rfl⟩ : ∃ m, fuel = m + 1 := ⟨fuel - 1, by omega⟩
    have accepted : ({ chars := before ++ '[' :: ']' :: ranks } : Rest).accept? ['[', ']'] = some { chars := ranks } :=
      (accept?_eq_some_iff (by decide)).mpr ⟨rfl, rfl, before, by simp, isBefore⟩
    rw [takeArrays, accepted]
    simp only [ih (Nat.le_of_succ_le_succ enough) behind]

theorem takeArgs_of_written {parse : Rest → Except Problem (TypeExpr × Rest)} {es : List TypeExpr} {bound fuel : Nat}
    (each : ∀ cs e gap rest, Written isReadable cs [e] (gap ++ rest) → cs.length ≤ bound → IsGap gap → Follows rest →
      parse { chars := cs } = .ok (e, { chars := rest }))
    (h : Written isReadable cs es (gap ++ '>' :: rest)) (short : cs.length ≤ bound) (enough : es.length ≤ fuel)
    (isGap : IsGap gap) : takeArgs text parse fuel { chars := cs } = .ok (es, { chars := rest }) := by
  generalize behind : gap ++ '>' :: rest = out at h
  induction es generalizing cs fuel with
  | nil => exact absurd rfl h.ne_nil
  | cons e es ih =>
    obtain ⟨fuel, rfl⟩ : ∃ m, fuel = m + 1 := ⟨fuel - 1, by simp at enough; omega⟩
    have whole := h
    cases h with
    | plain | applied =>
      rw [takeArgs, each _ _ gap _ (behind ▸ whole) short isGap (by simp [Follows])]
      rfl
    | @more _ before list _ _ _ item isBefore items =>
      have shorter : list.length ≤ bound := by
        obtain ⟨front, rfl, -⟩ := item.front
        simp only [length_append, length_cons] at short
        omega
      rw [takeArgs, each cs e before _ item short isBefore (by simp [Follows])]
      refine bind_eq_ok.mpr ⟨_, rfl, ?_⟩
      exact bind_eq_ok.mpr ⟨_, ih shorter (Nat.le_of_succ_le_succ enough) items, rfl⟩

/-- None of the marks is read as part of a name. -/
theorem unread_marks : ∀ c ∈ [' ', '<', '[', ',', '>'], isReadable c = false ∧ (unreadBytes c).length = byteCount c :=
  @of_decide_eq_true _ (decidableBAll _ _) (by decide)

theorem ne_space_of_isReadable {c : Char} (h : isReadable c = true) : c ≠ ' ' := by
  rintro rfl
  exact absurd h (by decide)

/-- The front of an expression: its name. -/
theorem takeName_of_isRun {name : List Char} (isGap : IsGap gap) (isName : IsRun isReadable name)
    (ends : ∀ c ∈ tail.head?, c ∈ [' ', '<', '[', ',', '>']) :
    ({ chars := gap ++ name ++ tail } : Rest).skipSpaces = { chars := name ++ tail } ∧
      takeName (name ++ tail) = (name, { chars := tail }) := by
  refine ⟨?_, takeName_append isName.2 fun c hc => unread_marks c (ends c hc)⟩
  rw [append_assoc]
  refine skipSpaces_chars isGap fun c hc => ?_
  obtain ⟨d, name, rfl⟩ := exists_cons_of_ne_nil isName.1
  obtain rfl : d = c := Option.some.inj hc
  exact ne_space_of_isReadable (isName.2 d mem_cons_self)

theorem head_gap_append {marks before : List Char} (isBefore : IsGap before) (ends : ∀ c ∈ tail.head?, c ∈ marks) :
    ∀ c ∈ (before ++ tail).head?, c ∈ ' ' :: marks := by
  intro c hc
  cases before with
  | nil => exact mem_cons_of_mem _ (ends c hc)
  | cons d before =>
    obtain rfl : d = c := Option.some.inj hc
    rw [isBefore d mem_cons_self]
    exact mem_cons_self

/-- **What is written is read**, if as many nested steps may be made as there are characters. -/
theorem parseWithin_of_written {e : TypeExpr} {fuel : Nat} (h : Written isReadable cs [e] (gap ++ rest))
    (enough : cs.length ≤ fuel) (isGap : IsGap gap) (follows : Follows rest) :
    parseWithin text fuel { chars := cs } = .ok (e, { chars := rest }) := by
  induction fuel generalizing cs e gap rest with
  | zero =>
    obtain ⟨front, rfl, long⟩ := h.front
    simp only [length_append, length_cons] at enough long
    omega
  | succ fuel ih =>
    generalize behind : gap ++ rest = out at h
    cases h with
    | @plain lead name ranks _ n isLead isName arrays =>
      subst behind
      obtain ⟨front, size, count⟩ := arrays.front
      obtain ⟨before, tail, split, isBefore, ends⟩ := arrays.split isGap follows
      have ends' : ∀ c ∈ ranks.head?, c ∈ [' ', '<', '[', ',', '>'] := fun c hc =>
        cons_subset_cons _ (subset_cons_self _ _) (head_gap_append isBefore ends c (split ▸ hc))
      obtain ⟨spaces, front⟩ := takeName_of_isRun isLead isName ends'
      have refused : ({ chars := ranks } : Rest).accept? ['<'] = none := by
        rw [split]
        refine accept?_eq_none isBefore fun c hc => ?_
        have mark := ends c hc
        constructor <;> rintro rfl <;> simp at mark
      have named : name.isEmpty = false := by simpa using isName.1
      rw [parseWithin, spaces]
      simp only [isEmpty_nil, if_true, front, named, refused]
      refine bind_eq_ok.mpr ⟨_, rfl, ?_⟩
      rw [takeArrays_of_ranks arrays ?_ isGap follows]
      have long := length_pos_iff.mpr isName.1
      simp only [size, length_append] at enough
      omega
    | @applied lead name before list after ranks _ args n isLead isName isBefore items isAfter arrays =>
      subst behind
      have ends : ∀ c ∈ (before ++ '<' :: list).head?, c ∈ [' ', '<', '[', ',', '>'] := head_gap_append isBefore (by simp)
      obtain ⟨spaces, front⟩ := takeName_of_isRun isLead isName ends
      have accepted : ({ chars := before ++ '<' :: list } : Rest).accept? ['<'] = some { chars := list } :=
        (accept?_eq_some_iff (by decide)).mpr ⟨rfl, rfl, before, by simp, isBefore⟩
      have named : name.isEmpty = false := by simpa using isName.1
      have whole : lead ++ name ++ before ++ '<' :: list = lead ++ name ++ (before ++ '<' :: list) := by simp
      obtain ⟨front', rfl, size⟩ := items.front
      obtain ⟨front'', rfl, count⟩ := arrays.front
      simp only [length_append, length_cons] at enough
      rw [parseWithin, whole, spaces]
      simp only [isEmpty_nil, if_true, front, named, accepted]
      have short : (front' ++ (after ++ '>' :: (front'' ++ (gap ++ rest)))).length ≤ fuel := by
        simp only [length_append, length_cons]
        omega
      rw [takeArgs_of_written (fun _ _ _ _ => ih) items short (by omega) isAfter]
      refine bind_eq_ok.mpr ⟨_, rfl, ?_⟩
      rw [takeArrays_of_ranks arrays (by omega) isGap follows]
    | more _ _ items => exact absurd rfl items.ne_nil

end Complete

/-! ## The parser -/

/-- **The parser accepts exactly its grammar**, with names of the characters that it reads to the end. -/
theorem parse_eq_ok_iff (s : String) (e : TypeExpr) : parse s = .ok e ↔ Derives isReadable s e := by
  constructor
  · intro run
    obtain ⟨⟨e', r⟩, read, run⟩ := bind_eq_ok.mp run
    dsimp only at run
    split at run
    · next done =>
      cases run
      obtain ⟨bytes, chars⟩ := Bool.and_eq_true_iff.mp done
      obtain ⟨between, gap', isGap', rest⟩ := skipSpaces_reads (isEmpty_iff.mp bytes)
      obtain ⟨-, gap, isGap, written⟩ := parseWithin_reads read between
      rw [rest, isEmpty_iff.mp chars, append_nil] at written
      exact ⟨gap ++ gap', isGap.append isGap', written⟩
    · cases run
  · rintro ⟨gap, isGap, written⟩
    rw [← append_nil gap] at written
    have read : parseWithin s (s.toList.length + 1) { chars := s.toList } = .ok (e, { chars := [] }) :=
      parseWithin_of_written written (Nat.le_succ _) isGap (by simp [Follows])
    simp only [parse]
    rw [read]
    rfl

theorem isReadable_ascii {c : Char} (ascii : c.toNat < 0x80) : isReadable c = isNameChar c := by
  rw [isReadable, unreadBytes, if_pos ascii]
  cases isNameChar c <;> rfl

theorem isNameChar_ascii {c : Char} (h : isNameChar c = true) : c.toNat < 0x80 := by
  have letter : c.isAlpha = (decide ('A'.val ≤ c.val ∧ c.val ≤ 'Z'.val) || ('a'.val ≤ c.val && c.val ≤ 'z'.val)) := rfl
  simp only [isNameChar, Char.isAlphanum, letter, Char.isDigit, Bool.or_eq_true, Bool.and_eq_true, decide_eq_true_eq] at h
  rcases h with (((h | h) | h) | rfl) | rfl
  any_goals decide
  all_goals exact Nat.lt_of_le_of_lt h.2 (by decide)

theorem Derives.congr {p q : Char → Bool} {s : String} {e : TypeExpr} (h : Derives p s e)
    (same : ∀ c ∈ s.toList, p c = q c) : Derives q s e := by
  obtain ⟨gap, isGap, written⟩ := h
  exact ⟨gap, isGap, written.mono fun c hc => by rw [same c hc]; exact id⟩

/-! ## Printing -/

mutual

/-- The tokens of a tree. -/
def tokens : TypeExpr → List (List Char)
  | ⟨name, args, arrays⟩ =>
    name.toList :: (if args.isEmpty then [] else ['<'] :: itemTokens args ++ [['>']]) ++ replicate arrays ['[', ']']

/-- The tokens of trees with commas between them. -/
def itemTokens : List TypeExpr → List (List Char)
  | [] => []
  | [e] => tokens e
  | e :: es => tokens e ++ [','] :: itemTokens es

end

/-- **The front of a text is tokens** with any spaces before each of them. -/
inductive Spread : List (List Char) → List Char → List Char → Prop where
  | nil {rest : List Char} : Spread [] rest rest
  | cons {gap token text rest : List Char} {tokens : List (List Char)} (isGap : IsGap gap)
      (others : Spread tokens text rest) : Spread (token :: tokens) (gap ++ token ++ text) rest

/-- The characters of all names are of a kind. -/
inductive NamesIn (p : Char → Bool) : TypeExpr → Prop where
  | mk {name : String} {args : List TypeExpr} {arrays : Nat} (isName : IsRun p name.toList)
      (inside : ∀ a ∈ args, NamesIn p a) : NamesIn p ⟨name, args, arrays⟩

section Print

variable {p : Char → Bool} {text rest : List Char}

theorem Spread.split {ts us : List (List Char)} (h : Spread (ts ++ us) text rest) :
    ∃ middle, Spread ts text middle ∧ Spread us middle rest := by
  induction ts generalizing text with
  | nil => exact ⟨text, .nil, h⟩
  | cons t ts ih =>
    obtain _ | ⟨isGap, others⟩ := h
    obtain ⟨middle, first, second⟩ := ih others
    exact ⟨middle, .cons isGap first, second⟩

theorem Spread.ranks {n : Nat} (h : Spread (replicate n ['[', ']']) text rest) : Ranks text n rest := by
  induction n generalizing text with
  | zero =>
    obtain _ | _ := h
    exact .none
  | succ n ih =>
    obtain _ | ⟨isGap, others⟩ := h
    rw [append_assoc]
    exact .more isGap (ih others)

theorem Spread.items {es : List TypeExpr} (some : es ≠ [])
    (each : ∀ e ∈ es, ∀ text rest, Spread e.tokens text rest → Written p text [e] rest)
    (h : Spread (itemTokens es) text rest) : Written p text es rest := by
  induction es generalizing text with
  | nil => exact absurd rfl some
  | cons e es ih =>
    cases es with
    | nil =>
      exact each e mem_cons_self _ _ h
    | cons e' es =>
      obtain ⟨middle, first, second⟩ := h.split
      obtain _ | ⟨isGap, others⟩ := second
      have item := each e mem_cons_self _ _ first
      rw [append_assoc] at item
      exact .more item isGap (ih (cons_ne_nil _ _) (fun a ha => each a (mem_cons_of_mem _ ha)) others)

/-- **What is printed is written.** -/
theorem Spread.written {e : TypeExpr} (names : NamesIn p e) (h : Spread e.tokens text rest) : Written p text [e] rest := by
  induction names generalizing text rest with
  | @mk name args arrays isName inside ih =>
    rw [← String.ofList_toList (s := name)]
    by_cases none : args = []
    · subst none
      obtain _ | ⟨isGap, others⟩ := h
      exact .plain isGap isName others.ranks
    · have listed : tokens ⟨name, args, arrays⟩ =
          name.toList :: ['<'] :: (itemTokens args ++ ['>'] :: replicate arrays ['[', ']']) := by
        simp [tokens, none]
      rw [listed] at h
      obtain _ | ⟨isGap, others⟩ := h
      obtain _ | ⟨isBefore, others⟩ := others
      obtain ⟨middle, list, others⟩ := others.split
      obtain _ | ⟨isAfter, others⟩ := others
      have items := list.items none fun e he _ _ => ih e he
      rw [append_assoc] at items
      simpa using Written.applied isGap isName isBefore items isAfter others.ranks

end Print

/-- **Type expressions are read exactly as they are written.** A text of ASCII is accepted exactly when it is a text of
the grammar with spaces behind it, and what it is read as is the tree of the grammar, of which there is one. A tree
whose names are names, printed with any spaces before its tokens and behind them, is read back. -/
theorem type_expressions_exact :
    (∀ s : String, (∀ c ∈ s.toList, c.toNat < 0x80) →
      (∀ e, parse s = .ok e ↔ Derives isNameChar s e) ∧
        ∀ e e', Derives isNameChar s e → Derives isNameChar s e' → e = e') ∧
      ∀ e, NamesIn isNameChar e → ∀ s gap, Spread e.tokens s.toList gap → IsGap gap → parse s = .ok e := by
  have accepts (s : String) (ascii : ∀ c ∈ s.toList, c.toNat < 0x80) (e : TypeExpr) :
      parse s = .ok e ↔ Derives isNameChar s e := by
    rw [parse_eq_ok_iff]
    have same (c : Char) (hc : c ∈ s.toList) := isReadable_ascii (ascii c hc)
    exact ⟨fun h => h.congr same, fun h => h.congr fun c hc => (same c hc).symm⟩
  refine ⟨fun s ascii => ⟨accepts s ascii, fun e e' first second => ?_⟩, fun e names s gap printed isGap => ?_⟩
  · have same := ((accepts s ascii e).mpr first).symm.trans ((accepts s ascii e').mpr second)
    exact Except.ok.inj same
  · refine (parse_eq_ok_iff _ e).mpr ⟨gap, isGap, (printed.written names).mono fun c _ name => ?_⟩
    rw [isReadable_ascii (isNameChar_ascii name), name]

example : parse " Map < a.b [] ,c_1 >  [][] " = .ok ⟨"Map", [⟨"a.b", [], 1⟩, ⟨"c_1", [], 0⟩], 2⟩ := rfl

end TypeExpr

end Polyglot
