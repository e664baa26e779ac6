import Mathlib.Data.List.Chain
import Mathlib.Tactic.IntervalCases
import Polyglot.Prelude
import Polyglot.Proofs.Keys
import Polyglot.Proofs.ScalarNumbers
import Polyglot.Proofs.Writing.Text

/-!
# The numbers of an enumeration

A value of an enumeration is the number that is given to it, or follows the value before it. C# and TypeScript are left to count
by themselves. For the other targets the counting is done here, where what is written for a value is read back as a decimal of
64 bits; a value in another base is passed over. So the numbers agree with the meaning exactly when each value that is given no
number follows the same number in both ways of counting.
-/

namespace Polyglot

open Text List

/-! ## Readings -/

namespace Text

/-- A way to read integers, in which decimals are what they say. -/
structure Reading where
  read : String → Option Int
  read_decimal : ∀ n : Int, read (signedDecimal n) = some n

theorem toNat_of_isDigit {c : Char} (h : c.isDigit = true) : 48 ≤ c.toNat ∧ c.toNat ≤ 57 := by
  simpa [Char.isDigit, UInt32.le_iff_toNat_le] using h

theorem digitValue?_of_isDigit {c : Char} (h : c.isDigit = true) : digitValue? c = some (c.toNat - '0'.toNat) := by
  have range : '0' ≤ c ∧ c ≤ '9' := by simpa [Char.isDigit, Char.le_def] using h
  rw [digitValue?, if_pos (by simpa using range)]

theorem foldDigits?_of_isDigit {cs : List Char} (digits : ∀ c ∈ cs, c.isDigit = true) (n : Nat) :
    foldDigits? 10 cs n = some (Nat.ofDigitChars 10 cs n) := by
  induction cs generalizing n with
  | nil => rfl
  | cons c cs ih =>
    have digit := digits c mem_cons_self
    have small : c.toNat - '0'.toNat < 10 := by
      have range := toNat_of_isDigit digit
      have zero : '0'.toNat = 48 := rfl
      omega
    rw [foldDigits?, digitValue?_of_isDigit digit]
    dsimp only
    rw [if_pos small, ih (fun c hc => digits c (mem_cons_of_mem _ hc)), Nat.ofDigitChars_cons, Nat.mul_comm]

/-- The digits of a number do not begin with a zero, except for zero itself. -/
theorem head?_toDigits {n : Nat} (pos : 0 < n) : (Nat.toDigits 10 n).head? ≠ some '0' := by
  induction n using Nat.strongRecOn with
  | ind n ih =>
    by_cases small : n < 10
    · interval_cases n <;> decide
    · rw [Nat.toDigits_of_base_le (by decide) (by omega), head?_append,
        Option.or_of_isSome (by simp)]
      exact ih (n / 10) (by omega) (by omega)

variable (n : Nat)

theorem announcedBase_toDigits : announcedBase (Nat.toDigits 10 n) = (10, Nat.toDigits 10 n, false) := by
  rcases Nat.eq_zero_or_pos n with rfl | pos
  · rfl
  · have lead := head?_toDigits pos
    unfold announcedBase
    split
    · next digits =>
      rw [digits] at lead
      exact absurd rfl lead
    · rfl

theorem isDigit_toDigits : ∀ c ∈ Nat.toDigits 10 n, c.isDigit = true := fun _ hc =>
  Nat.isDigit_of_mem_toDigits (by decide) (by decide) hc

theorem magnitude?_toDigits : magnitude? (Nat.toDigits 10 n) = some n := by
  have number : digits? 10 (Nat.toDigits 10 n) = some n := by
    cases chars : Nat.toDigits 10 n with
    | nil => exact absurd chars Nat.toDigits_ne_nil
    | cons c cs =>
      rw [digits?, ← chars, foldDigits?_of_isDigit (isDigit_toDigits n), Nat.ofDigitChars_ten_toDigits]
  rw [magnitude?_of_notMem Nat.underscore_not_in_toDigits, announcedBase_toDigits, number]

/-- The integer that a text spells with an optional sign, in the base that it announces. -/
def integer? (s : String) : Option Int :=
  let (negative, digits) := cutSign s.toList
  (magnitude? digits).map fun n : Nat => if negative then -(n : Int) else n

theorem cutSign_toDigits : cutSign (Nat.toDigits 10 n) = (false, Nat.toDigits 10 n) := by
  unfold cutSign
  split
  · next chars => exact absurd (isDigit_toDigits n '-' (chars ▸ mem_cons_self)) (by decide)
  · next chars => exact absurd (isDigit_toDigits n '+' (chars ▸ mem_cons_self)) (by decide)
  · rfl

theorem toList_signedDecimal_ofNat : (signedDecimal n).toList = Nat.toDigits 10 n :=
  String.toList_ofList

theorem toList_signedDecimal_negSucc : (signedDecimal (.negSucc n)).toList = '-' :: Nat.toDigits 10 (n + 1) := by
  simp [signedDecimal, decimal]

theorem integer?_signedDecimal (n : Int) : integer? (signedDecimal n) = some n := by
  cases n with
  | ofNat n =>
    rw [integer?, Int.ofNat_eq_natCast, toList_signedDecimal_ofNat, cutSign_toDigits]
    dsimp only
    rw [magnitude?_toDigits]
    rfl
  | negSucc n =>
    rw [integer?, toList_signedDecimal_negSucc]
    change (magnitude? (Nat.toDigits 10 (n + 1))).map (fun n : Nat => -(n : Int)) = _
    rw [magnitude?_toDigits]
    rfl

def Reading.announced : Reading := ⟨integer?, integer?_signedDecimal⟩

theorem digitsNat?_toDigits : digitsNat? (Nat.toDigits 10 n) = some n := by
  have digits : (Nat.toDigits 10 n).any (!·.isDigit) = false := by simpa using isDigit_toDigits n
  have number : (Nat.toDigits 10 n).foldl (fun n c => 10 * n + (c.toNat - 48)) 0 = n :=
    Nat.ofDigitChars_ten_toDigits
  rw [digitsNat?, if_neg (by simp [digits]), number]

theorem getD_filter {α : Type} (p : α → Bool) (a : α) : ((some a).filter p).getD a = a := by
  cases h : p a <;> simp [Option.filter, h]

/-- A decimal counts as what it says, or does not count. -/
theorem getD_int64?_signedDecimal (n : Int) : (int64? (signedDecimal n)).getD n = n := by
  cases n with
  | ofNat n =>
    rw [int64?, Int.ofNat_eq_natCast, toList_signedDecimal_ofNat]
    split
    · next chars => exact absurd (isDigit_toDigits n '-' (chars ▸ mem_cons_self)) (by decide)
    · next chars => exact absurd (isDigit_toDigits n '+' (chars ▸ mem_cons_self)) (by decide)
    · rw [digitsNat?_toDigits]
      exact getD_filter _ (n : Int)
  | negSucc n =>
    rw [int64?, toList_signedDecimal_negSucc]
    change (Option.filter _ ((digitsNat? (Nat.toDigits 10 (n + 1)) >>= fun a => pure (a : Int)).map (- ·))).getD _ = _
    rw [digitsNat?_toDigits]
    exact getD_filter _ (Int.negSucc n)

end Text

/-! ## Counting -/

namespace EnumMember

variable {read : String → Option Int} {values : List EnumMember}

/-- The number behind some values, when the numbers that are given are read in some way. One that cannot be read is passed
over. -/
def behind (read : String → Option Int) (start : Int) (values : List EnumMember) : Int :=
  values.foldl (fun n v => (v.value.bind read).getD n + 1) start

/-- **The meaning of values**: the number that is given, or the one behind the value before. -/
def meant (read : String → Option Int) : Int → List EnumMember → List Int
  | _, [] => []
  | start, v :: rest =>
    let number := (v.value.bind read).getD start
    number :: meant read (number + 1) rest

/-- The counting goes on from a number of 64 bits. -/
theorem numberedFrom_cons (n : Int) (v : EnumMember) (rest : List EnumMember) : numberedFrom (n.bmod (2 ^ 64)) (v :: rest) =
      (v.name, v.value.getD (signedDecimal (n.bmod (2 ^ 64)))) ::
        numberedFrom (((v.value.bind int64?).getD n + 1).bmod (2 ^ 64)) rest := by
  refine congrArg (cons _) (congrArg (numberedFrom · rest) ?_)
  cases v.value with
  | none => rw [Option.getD_none, getD_int64?_signedDecimal, Int.bmod_add_bmod, Option.bind_none, Option.getD_none]
  | some s =>
    rw [Option.getD_some, Option.bind_some]
    cases int64? s with
    | none => rw [Option.getD_none, Option.getD_none, Int.bmod_add_bmod]
    | some m => rfl

/-- **The numbers agree with the meaning** exactly when each value that is given no number follows the same number in both ways
of counting. -/
theorem numberedFrom_agrees_iff (reading : Reading) (n start : Int)
    (spelled : ∀ v ∈ values, ∀ s ∈ v.value, (reading.read s).isSome) :
    (numberedFrom (n.bmod (2 ^ 64)) values).map (fun row => reading.read row.2) = (meant reading.read start values).map some ↔
      ∀ before v after, values = before ++ v :: after → v.value = none →
        (behind int64? n before).bmod (2 ^ 64) = behind reading.read start before := by
  induction values generalizing n start with
  | nil => exact ⟨fun _ _ _ _ split => absurd split.symm (by simp), fun _ => rfl⟩
  | cons v rest ih =>
    have next := ih ((v.value.bind int64?).getD n + 1) ((v.value.bind reading.read).getD start + 1)
      fun x hx => spelled x (mem_cons_of_mem _ hx)
    rw [forall_places_cons, numberedFrom_cons, meant, map_cons, map_cons, cons.injEq, next]
    refine and_congr ?_ Iff.rfl
    cases given : v.value with
    | none =>
      rw [Option.getD_none, reading.read_decimal, Option.some.injEq]
      exact ⟨fun same _ => same, fun all => all rfl⟩
    | some s =>
      obtain ⟨m, number⟩ := Option.isSome_iff_exists.mp (spelled v mem_cons_self s given)
      rw [Option.getD_some, Option.bind_some, number]
      exact ⟨fun _ => nofun, fun _ => rfl⟩

/-- A number right before a value that is given none is a decimal of 64 bits, where it is read as a number at all. -/
def Counted (read : String → Option Int) (values : List EnumMember) : Prop :=
  values.IsChain fun v w => w.value = none → v.value.bind int64? = v.value.bind read

instance (read : String → Option Int) (values : List EnumMember) : Decidable (Counted read values) :=
  inferInstanceAs (Decidable (values.IsChain _))

theorem behind_concat (read : String → Option Int) (start : Int) (before : List EnumMember) (v : EnumMember) :
    behind read start (before ++ [v]) = (v.value.bind read).getD (behind read start before) + 1 := by
  rw [behind, foldl_append]
  rfl

variable {before after : List EnumMember} {w : EnumMember}

theorem behind_eq_of_counted (counted : Counted read values) (spelled : ∀ v ∈ values, ∀ s ∈ v.value, (read s).isSome)
    (split : values = before ++ w :: after) (unnumbered : w.value = none) : behind int64? 0 before = behind read 0 before := by
  induction before using reverseRecOn generalizing w after with
  | nil => rfl
  | append_singleton before v ih =>
    rw [append_assoc] at split
    have counts : v.value.bind int64? = v.value.bind read := by
      rw [split] at counted
      exact (isChain_append_cons_cons.mp counted).2.1 unnumbered
    rw [behind_concat, behind_concat, counts]
    cases given : v.value with
    | none => rw [Option.bind_none, Option.getD_none, Option.getD_none, ih split given]
    | some s =>
      have member : v ∈ values := split ▸ mem_append_right _ mem_cons_self
      obtain ⟨n, number⟩ := Option.isSome_iff_exists.mp (spelled v member s given)
      rw [Option.bind_some, number, Option.getD_some, Option.getD_some]

theorem behind_mem_meant (split : values = before ++ w :: after) (unnumbered : w.value = none) (start : Int) :
    behind read start before ∈ meant read start values := by
  subst split
  induction before generalizing start with
  | nil =>
    rw [nil_append, meant, unnumbered]
    exact mem_cons_self
  | cons v before ih => exact mem_cons_of_mem _ (ih _)

/-- The values are numbers of 64 bits. -/
def InRange (numbers : List Int) : Prop := ∀ n ∈ numbers, -2 ^ 63 ≤ n ∧ n < 2 ^ 63

instance (numbers : List Int) : Decidable (InRange numbers) :=
  inferInstanceAs (Decidable (∀ n ∈ numbers, -2 ^ 63 ≤ n ∧ n < 2 ^ 63))

theorem bmod_behind_of_counted (counted : Counted read values) (spelled : ∀ v ∈ values, ∀ s ∈ v.value, (read s).isSome)
    (range : InRange (meant read 0 values)) (split : values = before ++ w :: after) (unnumbered : w.value = none) :
    (behind int64? 0 before).bmod (2 ^ 64) = behind read 0 before := by
  obtain ⟨low, high⟩ := range _ (behind_mem_meant split unnumbered 0)
  rw [behind_eq_of_counted counted spelled split unnumbered, Int.bmod_eq_of_le (by omega) (by omega)]

/-- The numbered values are the values, each with its number. -/
theorem map_numberedFrom {α : Type} (f : String → String → α) (n : Int) (values : List EnumMember) :
    (numberedFrom n values).map (fun row => f row.1 row.2) =
      zipWith (fun v number => f v.name number) values ((numberedFrom n values).map Prod.snd) := by
  induction values generalizing n with
  | nil => rfl
  | cons v rest ih => exact congrArg (cons _) (ih _)

end EnumMember

/-- The numbers that are written for the values of an enumeration. -/
def TypeDecl.numbers (d : TypeDecl) : List String := d.numbered.map Prod.snd

/-! ## Lines of values -/

/-- The lines for the values of an enumeration and their numbers. C# and TypeScript are given the numbers of the document only;
in Java the values carry numbers where one value is given a number. -/
def Target.valueLines (t : Target) (values : List EnumMember) (numbers : List String) : List String :=
  match t with
  | .cpp => zipWith (fun v number => identifier .cpp v.name ++ " = " ++ number ++ ",") values numbers
  | .rust => zipWith (fun v number => v.name ++ " = " ++ number ++ ",") values numbers
  | .java =>
    let isNumbered := values.any (·.value.isSome)
    Emit.javaValueLines (zipWith (fun v number =>
      identifier .java v.name ++ (if isNumbered then "(" ++ number ++ ")" else "")) values numbers)
  | t => values.map fun v => t.identifier v.name ++ ((v.value.map (" = " ++ ·)).getD "") ++ ","

namespace Emit

variable {r : Emitter} {scene : Scene}

/-- The part stands somewhere in the text. -/
def Holds (part text : String) : Prop := ∃ front rest, text = front ++ part ++ rest

theorem Holds.refl (part : String) : Holds part part := ⟨"", "", by rw [String.empty_append, String.append_empty]⟩

theorem Holds.append {part text : String} (h : Holds part text) (more : String) : Holds part (text ++ more) := by
  obtain ⟨front, rest, rfl⟩ := h
  exact ⟨front, rest ++ more, String.append_assoc⟩

theorem Holds.behind {part text : String} (h : Holds part text) (more : String) : Holds part (more ++ text) := by
  obtain ⟨front, rest, rfl⟩ := h
  exact ⟨more ++ front, rest, by simp only [String.append_assoc]⟩

def valueText (scene : Scene) : String :=
  linesAt scene 1 (scene.target.valueLines scene.decl.values scene.decl.numbers)

/-- Lines that each show a value with its number. -/
theorem valueText_eq (g : List String → List String) (f : String → String → String)
    (lines : scene.target.valueLines scene.decl.values scene.decl.numbers =
      g (zipWith (fun v number => f v.name number) scene.decl.values scene.decl.numbers)) :
    valueText scene = linesAt scene 1 (g (scene.decl.numbered.map fun row => f row.1 row.2)) := by
  rw [valueText, lines]
  exact congrArg (fun ls => linesAt scene 1 (g ls)) (EnumMember.map_numberedFrom f 0 _).symm

variable {part : String} {n m k : Nat} {x : Emit Unit} {f : Unit → Emit Unit} {ls : List String}

theorem Adds.holdsBefore (first : Adds scene n m (Holds part) x) (next : AddsText scene m k (f ())) :
    Adds scene n k (Holds part) (x >>= f) :=
  first.bind fun _ held => next.mono fun rest _ => held.append rest

theorem Adds.holdsBehind {P : String → Prop} (first : Adds scene n m P x) (next : Adds scene m k (Holds part) (f ())) :
    Adds scene n k (Holds part) (x >>= f) :=
  first.bind fun front _ => next.mono fun _ held => held.behind front

theorem holds_lines (next : AddsText scene n k (f ())) :
    Adds scene n k (Holds (linesAt scene n ls)) (lines ls >>= f) := by
  refine Adds.holdsBefore ((adds_lines ls).mono ?_) next
  rintro _ rfl
  exact .refl _

theorem holds_lineBlock {head : String} (some : head ≠ "") :
    Adds scene 0 0 (Holds (linesAt scene 1 ls)) (lineBlock head ls) :=
  (adds_openBlock some).holdsBehind (holds_lines adds_closing.text)

section

variable (isEnum : scene.decl.head.kind = .enumDecl)
include isEnum

theorem holds_cppEnum (cpp : scene.target = .cpp) : Adds scene 0 0 (Holds (valueText scene)) (cppDeclaration r) := by
  refine .reads (fun _ => rfl) (.reads (declaredName_apply _) ?_)
  rw [isEnum, valueText_eq id (fun v number => Target.identifier .cpp v ++ " = " ++ number ++ ",") (by rw [cpp]; rfl)]
  exact (adds_openBlock (by simp)).holdsBehind (holds_lines adds_closingSemicolon.text)

theorem holds_rustEnum (rust : scene.target = .rust) : Adds scene 0 0 (Holds (valueText scene)) (rustDeclaration r) := by
  refine .reads (fun _ => rfl) (.reads (declaredName_apply _) ?_)
  rw [isEnum, valueText_eq id (fun v number => v ++ " = " ++ number ++ ",") (by rw [rust]; rfl)]
  refine .reads (fun _ => rfl) ((adds_line _).holdsBehind ((adds_openBlock (by simp)).holdsBehind ?_))
  exact .ite (fun _ => (adds_line _).holdsBehind (holds_lines adds_closing.text)) fun _ => holds_lines adds_closing.text

theorem holds_javaEnum (java : scene.target = .java) : Adds scene 0 0 (Holds (valueText scene)) (javaDeclaration r) := by
  refine .reads (fun _ => rfl) (.reads (declaredName_apply _) (.reads (fun _ => rfl) ?_))
  rw [isEnum, valueText_eq javaValueLines (fun v number => Target.identifier .java v ++
    if scene.decl.values.any (·.value.isSome) then "(" ++ number ++ ")" else "") (by rw [java]; rfl)]
  refine .reads (fun _ => rfl) ((adds_openBlock (by simp)).holdsBehind (holds_lines ?_))
  refine .ite (fun _ => ?_) fun _ => adds_closing.text
  exact adds_blankLine.behind ((adds_line _).behind (adds_blankLine.behind (.reads (declaredName_apply _)
    ((adds_lineBlock (by simp) _).behind (adds_blankLine.behind ((adds_lineBlock (by simp) _).behind
      adds_closing.text))))))

theorem holds_csharpEnum (csharp : scene.target = .csharp) :
    Adds scene 0 0 (Holds (valueText scene)) (csharpDeclaration r) := by
  refine .reads (fun _ => rfl) (.reads (declaredName_apply _) (.reads (fun _ => rfl) ?_))
  rw [isEnum, valueText, csharp]
  exact holds_lineBlock (by simp)

theorem holds_typescriptEnum (typescript : scene.target = .typescript) :
    Adds scene 0 0 (Holds (valueText scene)) (typescriptDeclaration r) := by
  refine .reads (fun _ => rfl) (.reads (declaredName_apply _) (.reads (fun _ => rfl) ?_))
  rw [isEnum, valueText, typescript]
  exact holds_lineBlock (by simp)

omit isEnum in
theorem holds_cppNamespace (h : Adds scene 0 0 (Holds part) x) : Adds scene 0 0 (Holds part) (cppNamespace x) := by
  refine .reads (fun _ => rfl) (.ite (fun _ => h) fun _ => ?_)
  exact (adds_line _).holdsBehind (adds_blankLine.holdsBehind (h.holdsBefore (adds_blankLine.behind (adds_line _).text)))

/-- **The values of an enumeration stand in its file**, line by line. -/
theorem holds_fileBody (declares : scene.artifact.kind ≠ .definition) :
    Adds scene 0 0 (Holds (valueText scene)) (fileBody r scene) := by
  unfold fileBody
  split
  · next definition => exact absurd definition declares
  · next cpp _ => exact holds_cppNamespace (holds_cppEnum isEnum cpp)
  · next csharp => exact holds_csharpEnum isEnum csharp
  · next java => exact holds_javaEnum isEnum java
  · next rust => exact holds_rustEnum isEnum rust
  · next typescript => exact holds_typescriptEnum isEnum typescript

end

end Emit

namespace Compilation

variable {options : Options} {c : Compilation} {t : Target} {d : TypeDecl}

/-! ## Units -/

theorem ne_definition_of_isEnum (isEnum : d.head.kind = .enumDecl) {idx : TypeIndex} {a : Artifact}
    (ha : a ∈ t.artifacts idx d.head) : a.kind ≠ .definition := by
  have single : t.artifacts idx d.head = [⟨.declaration, t.artifactPath idx d.head .declaration⟩] ∨
      t.artifacts idx d.head = [⟨.source, t.artifactPath idx d.head .source⟩] := by
    cases t with
    | cpp => exact .inl (if_neg (by simp [isEnum]))
    | _ => exact .inr rfl
  rcases single with single | single <;>
  · rw [single, mem_singleton] at ha
    rw [ha]
    exact nofun

/-- **The numbers of an enumeration in emitted code.** Every output has the lines of its values. The numbers in the lines,
which C++ and Rust always show and Java shows where one value is given a number, are what the values mean exactly when
each value that is given none follows the same number in both ways of counting. So they are whenever the numbers right before
such values are decimals and all values have 64 bits. -/
theorem enum_numbers_agree_iff (reading : Text.Reading) {o : Output} (isEnum : d.head.kind = .enumDecl)
    (spelled : ∀ v ∈ d.values, ∀ s ∈ v.value, (reading.read s).isSome) (ho : o ∈ (emitUnit options c t d).outputs) :
    Emit.Holds (linesOn t.dialect.indent 1 (t.valueLines d.values d.numbers)) o.text ∧
    (d.numbers.map reading.read = (EnumMember.meant reading.read 0 d.values).map some ↔
      ∀ before v after, d.values = before ++ v :: after → v.value = none →
        (EnumMember.behind int64? 0 before).bmod (2 ^ 64) = EnumMember.behind reading.read 0 before) ∧
    (EnumMember.Counted reading.read d.values → EnumMember.InRange (EnumMember.meant reading.read 0 d.values) →
      d.numbers.map reading.read = (EnumMember.meant reading.read 0 d.values).map some) := by
  have agrees := EnumMember.numberedFrom_agrees_iff reading 0 0 spelled
  rw [← Function.comp_def, ← map_map] at agrees
  refine ⟨?_, agrees, fun counted range => agrees.mpr fun before v after split unnumbered => ?_⟩
  · obtain ⟨a, ha, front, text, held, whole⟩ := text_of_mem_unit
      (P := fun _ => Emit.Holds (linesOn t.dialect.indent 1 (t.valueLines d.values d.numbers))) ho
      fun a ha => Emit.holds_fileBody isEnum (ne_definition_of_isEnum isEnum ha)
    rw [whole]
    exact held.behind front
  · exact EnumMember.bmod_behind_of_counted counted spelled range split unnumbered

/-- Emission of C++, Java and Rust, without templates. -/
def numberingOnly : Options := { targets := [.cpp, .java, .rust], templates := {} }

/-- An enumeration with numbers in two bases, where decimals stand before the values without a number. -/
def levelsDraft : TypeDraft :=
  { kind := "enum", name := "N.Level", values := [⟨"Low", "-3"⟩, ⟨"Normal", ""⟩, ⟨"Mask", "0x10"⟩, ⟨"High", "7"⟩, ⟨"Top", ""⟩] }

/-- The lines of its values in Rust. -/
def levelLines : String :=
  "    Low = -3,\n    Normal = -2,\n    Mask = 0x10,\n    High = 7,\n    Top = 8,\n"

/-- Values are counted on from decimals, also when a number in another base stands in between. -/
theorem enum_numbers_agree_level : ∃ c d o, ofDocument Prelude.types "" { types := [some levelsDraft] } = .ok c ∧
    d ∈ c.types ∧ o ∈ (emitUnit numberingOnly c .rust d).outputs ∧ Emit.Holds levelLines o.text ∧
    d.numbers.map integer? = [some (-3), some (-2), some 16, some 7, some 8] := by
  have loaded : (ofDocument Prelude.types "" { types := [some levelsDraft] }).toOption.any (fun c => decide (
      ∃ d ∈ c.types, d.head.kind = .enumDecl ∧ (emitUnit numberingOnly c .rust d).outputs.length = 1 ∧
        (∀ v ∈ d.values, ∀ s ∈ v.value, (integer? s).isSome) ∧ EnumMember.Counted integer? d.values ∧
        EnumMember.InRange (EnumMember.meant integer? 0 d.values) ∧
        EnumMember.meant integer? 0 d.values = [-3, -2, 16, 7, 8] ∧
        linesOn Target.rust.dialect.indent 1 (Target.rust.valueLines d.values d.numbers) = levelLines)) = true := by
    decide +kernel
  obtain ⟨c, load, found⟩ := exists_ok_of_any loaded
  obtain ⟨d, hd, isEnum, one, spelled, counted, range, meaning, lines⟩ := of_decide_eq_true found
  obtain ⟨o, ho⟩ := length_eq_one_iff.mp one
  have written : o ∈ (emitUnit numberingOnly c .rust d).outputs := ho ▸ mem_singleton.mpr rfl
  obtain ⟨held, -, agree⟩ := enum_numbers_agree_iff .announced isEnum spelled written
  rw [lines] at held
  have numbers := agree counted range
  rw [show Text.Reading.announced.read = integer? from rfl, meaning] at numbers
  exact ⟨c, d, o, load, hd, written, held, numbers⟩

/-- An enumeration with a number in another base right before a value without a number. -/
def flagsDraft : TypeDraft := { kind := "enum", name := "N.Flags", values := [⟨"A", "0x10"⟩, ⟨"B", ""⟩] }

/-- Its files in C++, Java and Rust. -/
def flagsFiles : List String :=
  ["#pragma once\n\n#include \"phase/runtime.h\"\n\nnamespace N \x7b\n\nenum class Flags : std::int32_t \x7b\n" ++
      "    A = 0x10,\n    B = 1,\n\x7d;\n\n\x7d // namespace N\n",
    "package n;\n\npublic enum Flags \x7b\n    A(0x10),\n    B(1);\n\n    private final int value;\n\n" ++
      "    Flags(int value) \x7b\n        this.value = value;\n    \x7d\n\n" ++
      "    public int getValue() \x7b\n        return value;\n    \x7d\n\x7d\n",
    "#![allow(non_snake_case, unused_imports, unused_mut, dead_code)]\n\nuse std::cell::RefCell;\n" ++
      "use std::rc::\x7bRc, Weak\x7d;\n\n#[derive(Clone, Copy, PartialEq, Eq, Debug, Default)]\npub enum Flags \x7b\n" ++
      "    #[default]\n    A = 0x10,\n    B = 1,\n\x7d\n"]

/-- **Not all numbers are what the values mean**: behind a number in another base the counting goes on as if it was not
there. -/
theorem enum_numbers_disagree_flags : ∃ c d, ofDocument Prelude.types "" { types := [some flagsDraft] } = .ok c ∧
    d ∈ c.types ∧ EnumMember.meant integer? 0 d.values = [16, 17] ∧
    d.numbers.map integer? = [some 16, some 1] ∧
    ([.cpp, .java, .rust].flatMap fun t => (emitUnit numberingOnly c t d).outputs.map (·.text)) = flagsFiles :=
  exists_mem_ok_of_decide (by decide +kernel)

end Compilation

end Polyglot
