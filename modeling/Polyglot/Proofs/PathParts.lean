import Polyglot.Proofs.Keys
import Polyglot.Proofs.Names
import Polyglot.Target.Path

/-!
# Parts of names and paths

A dotted name falls into its parts at the dots, and a path into its parts at the slashes. Parts that are not empty, have no slash
in them and do not begin with a dot stand for themselves: a path is nothing but such parts with slashes between them.
-/

namespace Polyglot

open Text List

namespace Text

variable {sep : Char}

theorem splitChars_eq_splitOn (sep : Char) (cs : List Char) : splitChars sep cs = cs.splitOn sep := by
  induction cs with
  | nil => rfl
  | cons c cs ih =>
    rw [splitChars, splitOn_cons_eq_if_modifyHead, ih]
    obtain ⟨piece, pieces, eq⟩ := exists_cons_of_ne_nil (splitOn_ne_nil sep cs)
    simp [eq]

theorem splitChars_ne_nil (sep : Char) (cs : List Char) : splitChars sep cs ≠ [] := by
  rw [splitChars_eq_splitOn]
  exact splitOn_ne_nil sep cs

theorem splitChars_append (a b : List Char) :
    splitChars sep (a ++ sep :: b) = splitChars sep a ++ splitChars sep b := by
  simp only [splitChars_eq_splitOn, splitOn_append_cons_self]

variable {c : Char} {cs : List Char}

theorem splitChars_of_not_mem (h : sep ∉ cs) : splitChars sep cs = [cs] := by
  rw [splitChars_eq_splitOn, splitOn_eq_singleton h]

/-- The pieces have all characters but the separators. -/
theorem mem_splitChars_iff : (∃ piece ∈ splitChars sep cs, c ∈ piece) ↔ c ∈ cs ∧ c ≠ sep := by
  induction cs with
  | nil => simp [splitChars]
  | cons d cs ih =>
    obtain ⟨piece, pieces, eq⟩ := exists_cons_of_ne_nil (splitChars_ne_nil sep cs)
    rw [splitChars, eq]
    split <;> simp only [mem_cons] <;> grind

theorem split_injective {a b : String} (h : split sep a = split sep b) : a = b := by
  have pieces : splitChars sep a.toList = splitChars sep b.toList :=
    map_injective_iff.mpr (fun _ _ => String.ofList_injective) h
  rw [splitChars_eq_splitOn, splitChars_eq_splitOn] at pieces
  refine String.toList_injective ?_
  rw [← @intercalate_splitOn _ a.toList _ _ sep, pieces, intercalate_splitOn]

theorem mem_of_mem_split {s part : String} (h : part ∈ split sep s) (hc : c ∈ part.toList) : c ∈ s.toList := by
  obtain ⟨piece, mem, rfl⟩ := mem_map.mp h
  rw [String.toList_ofList] at hc
  exact (mem_splitChars_iff.mp ⟨piece, mem, hc⟩).1

theorem split_ne_nil (sep : Char) (s : String) : split sep s ≠ [] := by
  rw [split, ne_eq, map_eq_nil_iff]
  exact splitChars_ne_nil sep s.toList

theorem not_mem_of_mem_split {s part : String} (h : part ∈ split sep s) : sep ∉ part.toList := by
  obtain ⟨piece, mem, rfl⟩ := mem_map.mp h
  rw [String.toList_ofList]
  exact fun inside => (mem_splitChars_iff.mp ⟨piece, mem, inside⟩).2 rfl

theorem split_of_not_mem {s : String} (h : sep ∉ s.toList) : split sep s = [s] := by
  rw [split, splitChars_of_not_mem h, map_singleton, String.ofList_toList]

theorem split_append_sep {a b whole : String} (h : whole.toList = a.toList ++ sep :: b.toList) :
    split sep whole = split sep a ++ split sep b := by
  rw [split, h, splitChars_append, map_append]
  rfl

theorem split_append_tail (s : String) {tail : String} (free : sep ∉ tail.toList) :
    ∃ before last, split sep s = before ++ [last] ∧ split sep (s ++ tail) = before ++ [last ++ tail] := by
  cases cut : cutLast? sep s with
  | none =>
    have whole := cutLast?_eq_none cut
    exact ⟨[], s, split_of_not_mem whole, split_of_not_mem (by simp [whole, free])⟩
  | some parts =>
    obtain ⟨front, last⟩ := parts
    obtain ⟨whole, alone⟩ := cutLast?_eq_some cut
    have more : (s ++ tail).toList = front.toList ++ sep :: (last ++ tail).toList := by simp [whole]
    have long : sep ∉ (last ++ tail).toList := by simp [alone, free]
    refine ⟨split sep front, last, ?_, ?_⟩
    · rw [split_append_sep whole, split_of_not_mem alone]
    · rw [split_append_sep more, split_of_not_mem long]

theorem join_cons (sep s : String) {rest : List String} (h : rest ≠ []) :
    join sep (s :: rest) = s ++ sep ++ join sep rest := by
  obtain ⟨next, rest, rfl⟩ := exists_cons_of_ne_nil h
  rfl

theorem join_concat (sep last : String) {before : List String} (h : before ≠ []) :
    join sep (before ++ [last]) = join sep before ++ sep ++ last := by
  induction before with
  | nil => exact absurd rfl h
  | cons first before ih =>
    cases before with
    | nil => rfl
    | cons second before =>
      have rest := ih (by simp)
      rw [cons_append, join_cons _ first (by simp), rest, join_cons sep first (cons_ne_nil _ _)]
      simp only [String.append_assoc]

theorem join_append_last (sep : String) (before : List String) (last tail : String) :
    join sep (before ++ [last ++ tail]) = join sep (before ++ [last]) ++ tail := by
  induction before with
  | nil => rfl
  | cons first before ih =>
    rw [cons_append, cons_append, join_cons _ _ (by simp), join_cons _ _ (by simp), ih]
    simp only [String.append_assoc]

theorem toList_join (sep : String) (parts : List String) :
    (join sep parts).toList = sep.toList.intercalate (parts.map String.toList) := by
  induction parts with
  | nil => rfl
  | cons p parts ih =>
    cases parts with
    | nil => simp [join]
    | cons q parts =>
      rw [join_cons _ _ (cons_ne_nil _ _), String.toList_append, ih]
      simp

/-- A separator is replaced by setting the parts apart in another way. -/
theorem replaceChar_eq_join (sep : Char) (text s : String) :
    replaceChar sep text s = join text (split sep s) := by
  apply String.toList_injective
  have parts : (split sep s).map String.toList = splitChars sep s.toList := by simp [split]
  rw [replaceChar, mapChars, toList_join, parts, String.toList_ofList]
  induction s.toList with
  | nil => rfl
  | cons c cs ih =>
    obtain ⟨piece, pieces, eq⟩ := exists_cons_of_ne_nil (splitChars_ne_nil sep cs)
    rw [flatMap_cons, ih, splitChars, eq]
    split
    · rw [intercalate_cons_of_ne_nil (cons_ne_nil _ _), nil_append]
    · rw [intercalate_cons_cons_left, singleton_append]

theorem dropTail_append (s tail : String) : dropTail tail (s ++ tail) = s := by
  rw [dropTail, before?, String.toList_append, reverse_append, afterChars?_append]
  simp

/-- **A joined path shows its parts.** -/
theorem split_join {parts : List String} (nonempty : parts ≠ []) (free : ∀ p ∈ parts, '/' ∉ p.toList) :
    split '/' (join "/" parts) = parts := by
  rw [split, splitChars_eq_splitOn, toList_join, show "/".toList = ['/'] from rfl,
    splitOn_intercalate '/' (by simpa using free) (by simpa using nonempty)]
  simp

/-- The last text of a joined path gives its last parts. -/
theorem split_join_last (before : List String) (last : String) :
    ∃ front, split '/' (join "/" (before ++ [last])) = front ++ split '/' last := by
  induction before with
  | nil => exact ⟨[], rfl⟩
  | cons first before ih =>
    obtain ⟨front, parts⟩ := ih
    have chars : (join "/" (first :: (before ++ [last]))).toList =
        first.toList ++ '/' :: (join "/" (before ++ [last])).toList := by
      rw [join_cons _ _ (by simp)]
      simp
    refine ⟨split '/' first ++ front, ?_⟩
    rw [cons_append, split_append_sep chars, parts, append_assoc]

/-- A path is put together again from its parts. -/
theorem join_split (s : String) : join "/" (split '/' s) = s := by
  have parts := split_join (split_ne_nil '/' s) fun _ => not_mem_of_mem_split
  exact split_injective parts

end Text

/-! ## Paths -/

namespace Path

/-- A part of a path that stands for itself. -/
structure IsPart (s : String) : Prop where
  first : ∃ c rest, s.toList = c :: rest ∧ c ≠ '.'
  slash : '/' ∉ s.toList

theorem IsPart.ne {s : String} (h : IsPart s) : s ≠ "" ∧ s ≠ "." ∧ s ≠ ".." := by
  obtain ⟨c, rest, chars, ne⟩ := h.first
  refine ⟨?_, ?_, ?_⟩ <;> rintro rfl <;> cases chars <;> exact ne rfl

variable {parts : List String} {isRooted : Bool}

theorem cleanParts_append (h : ∀ p ∈ parts, p ≠ "" ∧ p ≠ "." ∧ p ≠ "..") (done rest : List String) :
    cleanParts isRooted done (parts ++ rest) = cleanParts isRooted (parts.reverse ++ done) rest := by
  induction parts generalizing done with
  | nil => rfl
  | cons p parts ih =>
    obtain ⟨empty, dot, dots⟩ := h p mem_cons_self
    rw [cons_append, cleanParts.eq_def]
    dsimp only
    rw [if_neg (by simp [empty, dot]), if_neg dots, ih fun q hq => h q (mem_cons_of_mem _ hq)]
    simp

theorem cleanParts_of_isPart (h : ∀ p ∈ parts, IsPart p) : cleanParts isRooted [] parts = parts := by
  simpa [cleanParts] using cleanParts_append (fun p hp => (h p hp).ne) [] []

theorem hasLead_join (nonempty : parts ≠ []) (h : ∀ p ∈ parts, IsPart p) : Text.hasLead "/" (Text.join "/" parts) = false := by
  obtain ⟨p, parts, rfl⟩ := exists_cons_of_ne_nil nonempty
  have part := h p mem_cons_self
  obtain ⟨c, rest, chars, -⟩ := part.first
  have ne : '/' ≠ c := by
    rintro rfl
    exact part.slash (by simp [chars])
  have begins : ∃ more, (Text.join "/" (p :: parts)).toList = c :: more := by
    cases parts with
    | nil => exact ⟨rest, chars⟩
    | cons q parts => exact ⟨rest ++ '/' :: (Text.join "/" (q :: parts)).toList, by simp [Text.join, chars]⟩
  obtain ⟨more, begins⟩ := begins
  rw [Text.hasLead, begins]
  simp [afterChars?, ne]

/-- **A path of such parts is the parts with slashes between them.** -/
theorem join_of_isPart (nonempty : parts ≠ []) (h : ∀ p ∈ parts, IsPart p) : join parts = Text.join "/" parts := by
  have split := split_join nonempty fun p hp => (h p hp).slash
  have kept : parts.dropWhile (· = "") = parts := by
    cases parts with
    | nil => rfl
    | cons p parts => rw [dropWhile_cons_of_neg (by simpa using (h p mem_cons_self).ne.1)]
  have some : parts.isEmpty = false := by simpa using nonempty
  simp only [join, kept, clean, some, hasLead_join nonempty h, split, cleanParts_of_isPart h]
  simp

/-- Paths of parts that stand for themselves are the same only if the parts are. -/
theorem join_inj {ps qs : List String} (hps : ps ≠ []) (hqs : qs ≠ []) (hp : ∀ p ∈ ps, IsPart p)
    (hq : ∀ q ∈ qs, IsPart q) (same : join ps = join qs) : ps = qs := by
  rw [join_of_isPart hps hp, join_of_isPart hqs hq] at same
  rw [← split_join hps fun p h => (hp p h).slash, same, split_join hqs fun q h => (hq q h).slash]

end Path

/-! ## Dotted names -/

/-- Words with dots between them. -/
def IsWords (name : String) : Prop := ∀ part ∈ split '.' name, IsWord part.toList

instance (name : String) : Decidable (IsWords name) := inferInstanceAs (Decidable (∀ part ∈ _, _))

/-- Each part of the dotted name is a name. -/
def IsDotted (name : String) : Prop := ∀ part ∈ split '.' name, IsName part.toList

instance (name : String) : Decidable (IsDotted name) := inferInstanceAs (Decidable (∀ part ∈ _, _))

variable {name s : String}

theorem IsDotted.isWords (h : IsDotted name) : IsWords name := fun part hp => (h part hp).1

/-- The last part of a dotted name is a name, and so are the parts of its namespace, if it has one. -/
theorem IsDotted.splitQualified {name : String} (h : IsDotted name) :
    IsName (splitQualified name).2.toList ∧
      ((Polyglot.splitQualified name).1 = "" ∨ IsDotted (Polyglot.splitQualified name).1) := by
  unfold Polyglot.splitQualified
  cases cut : cutLast? '.' name with
  | none =>
    have whole : split '.' name = [name] := by
      simp [split, splitChars_of_not_mem (cutLast?_eq_none cut)]
    exact ⟨h name (by simp [whole]), .inl rfl⟩
  | some parts =>
    obtain ⟨space, last⟩ := parts
    obtain ⟨chars, free⟩ := cutLast?_eq_some cut
    have whole : split '.' name = split '.' space ++ [last] := by
      simp [split, chars, splitChars_append, splitChars_of_not_mem free]
    exact ⟨h last (by simp [whole]), .inr fun part hp => h part (whole ▸ mem_append_left _ hp)⟩

theorem isIdentifierChar_of_isWords (h : IsWords name) {c : Char} (hc : c ∈ name.toList) :
    c = '.' ∨ isIdentifierChar c = true := by
  refine or_iff_not_imp_left.mpr fun other => ?_
  obtain ⟨piece, mem, hc⟩ := mem_splitChars_iff.mpr ⟨hc, other⟩
  have part := h (String.ofList piece) (mem_map_of_mem mem)
  rw [String.toList_ofList] at part
  exact part.2 c hc

theorem head_of_isWords (h : IsWords name) : name.toList.head? ≠ some '.' := by
  intro first
  obtain ⟨rest, chars⟩ : ∃ rest, name.toList = '.' :: rest := by
    cases cs : name.toList with
    | nil => rw [cs] at first; cases first
    | cons c rest => rw [cs] at first; cases first; exact ⟨rest, rfl⟩
  have part := h "" (by simp [split, chars, splitChars])
  exact part.1 rfl

/-- A name of a file or a directory: not empty, without dots and slashes. -/
structure IsPlain (s : String) : Prop where
  nonempty : s.toList ≠ []
  dot : '.' ∉ s.toList
  slash : '/' ∉ s.toList

instance (s : String) : Decidable (IsPlain s) :=
  decidable_of_iff (s.toList ≠ [] ∧ '.' ∉ s.toList ∧ '/' ∉ s.toList)
    ⟨fun ⟨nonempty, dot, slash⟩ => ⟨nonempty, dot, slash⟩, fun h => ⟨h.nonempty, h.dot, h.slash⟩⟩

theorem isPlain_of_isWord (h : IsWord s.toList) : IsPlain s where
  nonempty := h.1
  dot := fun mem => absurd (h.2 _ mem) (by decide)
  slash := fun mem => absurd (h.2 _ mem) (by decide)

theorem IsPlain.isPart_append {tail : String} (h : IsPlain s) (slash : '/' ∉ tail.toList) :
    Path.IsPart (s ++ tail) where
  first := by
    obtain ⟨c, rest, chars⟩ := exists_cons_of_ne_nil h.nonempty
    refine ⟨c, rest ++ tail.toList, by simp [chars], ?_⟩
    rintro rfl
    exact h.dot (by simp [chars])
  slash := by
    rw [String.toList_append, mem_append, not_or]
    exact ⟨h.slash, slash⟩

theorem IsPlain.isPart (h : IsPlain s) : Path.IsPart s := by
  simpa using h.isPart_append (show '/' ∉ "".toList by simp)

end Polyglot
