import Polyglot.Proofs.Writing.Declarations
import Polyglot.Proofs.Writing.Units

/-!
# The text that an emission adds

`Adds scene n m P x`: started at the start of a line on level `n`, the emission `x` adds a text with the property `P` when it
succeeds, and ends at the start of a line on level `m`. The rules go backwards: what is asked of the text of `x >>= f` becomes
what is asked of the text of `f`, behind the text of `x`.
-/

namespace Polyglot

open Text List

namespace Text

/-- A line with the indentation of a level. Empty lines have none, and neither have lines that begin with a break. -/
def indented (unit : String) (n : Nat) (s : String) : String :=
  if s = "" || beginsLine s then s else repeated unit n ++ s

/-- A line on a level, with its break. -/
def lineOn (unit : String) (n : Nat) (s : String) : String := indented unit n s ++ "\n"

/-- Some lines on a level. -/
def linesOn (unit : String) (n : Nat) (ls : List String) : String := String.join (ls.map (lineOn unit n))

theorem linesOn_cons (unit : String) (n : Nat) (s : String) (ls : List String) :
    linesOn unit n (s :: ls) = lineOn unit n s ++ linesOn unit n ls := by
  rw [linesOn, map_cons, String.join_cons, linesOn]

end Text

namespace Buffer

variable {b : Buffer} {unit s t : String}

theorem endsLine_append (some : s ≠ "") (t : String) : endsLine (t ++ s) = endsLine s := by
  have chars : s.toList ≠ [] := fun none => some (String.toList_injective none)
  have last : (t.toList ++ s.toList).getLast? = s.toList.getLast? := by
    rw [getLast?_append, Option.or_of_isSome (by simpa using chars)]
  rw [endsLine, endsLine, String.toList_append, last]

theorem atLineStart_write (some : s ≠ "") : (b.write unit s).atLineStart = endsLine s := by
  have indented : repeated unit b.level ++ s ≠ "" := by simp [some]
  rw [write, if_neg some]
  split
  · rw [append, if_neg indented]
    exact endsLine_append some _
  · rw [append, if_neg some]

theorem write_write (some : s ≠ "") (goesOn : endsLine s = false) :
    (b.write unit s).write unit t = b.write unit (s ++ t) := by
  have start : (b.write unit s).atLineStart = false := (atLineStart_write some).trans goesOn
  have begins : beginsLine (s ++ t) = beginsLine s := by
    have chars : s.toList ≠ [] := fun none => some (String.toList_injective none)
    have first : (s.toList ++ t.toList).head? = s.toList.head? := by
      rw [head?_append, Option.or_of_isSome (by simpa using chars)]
    rw [beginsLine, beginsLine, String.toList_append, first]
  by_cases empty : t = ""
  · rw [empty, String.append_empty, write, if_pos rfl]
  · have second : (b.write unit s).write unit t = (b.write unit s).append t := by
      rw [write, if_neg empty, start]
      rfl
    rw [second, write, write, if_neg some, begins]
    split <;> simp [append, some, empty, endsLine_append, String.append_assoc]

theorem endLine_write (some : s ≠ "") (goesOn : endsLine s = false) :
    (b.write unit s).endLine = (b.write unit s).breakLine := by
  rw [endLine, atLineStart_write some, goesOn]
  rfl

end Buffer

namespace Writer

variable {w : Writer} {unit : String} {n m : Nat}

/-- The writer is at the start of a line on a level. -/
structure AtLine (w : Writer) (unit : String) (n : Nat) : Prop where
  unit_eq : w.unit = unit
  level_eq : w.level = n
  lineStart : w.top.atLineStart = true

def extended (w : Writer) (n : Nat) (s : String) : Writer :=
  w.mapTop fun b => { text := b.text ++ s, level := n, atLineStart := true }

theorem AtLine.extended (start : w.AtLine unit n) (s : String) : (w.extended m s).AtLine unit m :=
  ⟨start.unit_eq, rfl, rfl⟩

theorem extended_extended (w : Writer) (n m : Nat) (a b : String) :
    (w.extended n a).extended m b = w.extended m (a ++ b) := by
  simp only [extended, mapTop, String.append_assoc]

theorem extended_empty (start : w.AtLine unit n) : w.extended n "" = w := by
  have same : ({ text := w.top.text ++ "", level := n, atLineStart := true } : Buffer) = w.top := by
    rw [String.append_empty, ← start.level_eq, ← start.lineStart]
    rfl
  rw [extended, mapTop, same]

theorem extends_extended (w : Writer) (n : Nat) (s : String) : w.Extends (w.extended n s) := ⟨rfl, rfl, s, rfl⟩

theorem Extends.eq_extended {w' : Writer} (h : w.Extends w') (level : w'.level = m)
    (lineStart : w'.top.atLineStart = true) : ∃ s, w' = w.extended m s := by
  obtain ⟨s, text⟩ := h.text
  obtain ⟨unit', ⟨text', level', start'⟩, below'⟩ := w'
  obtain ⟨rfl, rfl⟩ : unit' = w.unit ∧ below' = w.below := ⟨h.unit, h.below⟩
  obtain rfl : text' = w.top.text ++ s := text
  obtain rfl : level' = m := level
  obtain rfl : start' = true := lineStart
  exact ⟨s, rfl⟩

theorem writeLine_extended (start : w.AtLine unit n) (s : String) :
    w.writeLine s = w.extended n (lineOn unit n s) := by
  have wrote : (w.top.write w.unit s).breakLine =
      { text := w.top.text ++ lineOn unit n s, level := n, atLineStart := true } := by
    have level : w.top.level = n := start.level_eq
    rw [Buffer.write, start.lineStart, start.unit_eq, lineOn, indented]
    by_cases empty : s = ""
    · rw [if_pos empty, if_pos (by simp [empty]), Buffer.breakLine, empty, String.empty_append, level]
    · cases breaks : beginsLine s with
      | true | false => simp [Buffer.append, Buffer.breakLine, empty, level, String.append_assoc]
  rw [writeLine, extended, mapTop, mapTop, wrote]

theorem blankLine_extended (start : w.AtLine unit n) : w.blankLine = w.extended n "\n" := by
  have ended : w.top.endLine = w.top := if_pos start.lineStart
  rw [blankLine, mapTop, ended, ← start.level_eq]
  rfl

theorem indent_extended (start : w.AtLine unit n) : w.indent = w.extended (n + 1) "" := by
  rw [indent, extended, mapTop, mapTop, String.append_empty, ← start.level_eq, ← start.lineStart]
  rfl

theorem outdent_extended (start : w.AtLine unit (n + 1)) : w.outdent = w.extended n "" := by
  have level : w.top.level - 1 = n := by rw [show w.top.level = n + 1 from start.level_eq, Nat.add_sub_cancel]
  rw [outdent, extended, mapTop, mapTop, String.append_empty, level, ← start.lineStart]

/-- The end of a block: a brace on the level of its head, and what goes on behind it. -/
theorem closing_extended (start : w.AtLine unit (n + 1)) (tail : String) (ends : endsLine ("\x7d" ++ tail) = false) :
    ((w.outdent.write "\x7d").write tail).endLine = w.extended n (lineOn unit n ("\x7d" ++ tail)) := by
  have below := outdent_extended start
  have outside : w.outdent.AtLine unit n := below ▸ start.extended ""
  have both : (w.outdent.write "\x7d").write tail = w.outdent.write ("\x7d" ++ tail) :=
    congrArg (fun b => { w.outdent with top := b }) (Buffer.write_write (by decide) (by decide))
  have line : (w.outdent.write ("\x7d" ++ tail)).endLine = w.outdent.writeLine ("\x7d" ++ tail) :=
    congrArg (fun b => { w.outdent with top := b }) (Buffer.endLine_write (by simp) ends)
  rw [both, line, writeLine_extended outside, below, extended_extended, String.empty_append]

end Writer

/-- Trees are emitted well, and statements end their lines. -/
structure Emitter.Tidy (r : Emitter) : Prop where
  parts : r.Disciplined
  endsLine : ∀ (s : Stmt) (scene : Scene) (sheet sheet' : Sheet), r.stmt s scene sheet = (.ok (), sheet') →
    sheet'.writer.top.atLineStart = true

theorem Emitter.within_tidy (levels : Nat) : (Emitter.within levels).Tidy where
  parts := within_disciplined levels
  endsLine := by
    intro s scene sheet sheet' run
    cases levels with
    | zero => cases run
    | succ levels => exact Emit.atLineStart_statement run

namespace Emit

variable {α β : Type} {scene : Scene} {n m k : Nat} {P Q : String → Prop}

/-! ## What an emission gives -/

/-- **A success gives a value with a property**, if a part of the sheet was as it has to be, and leaves that part exactly as it
is. -/
def YieldsOn {σ : Type} (part : Sheet → σ) (K : σ → Prop) (scene : Scene) (P : α → Prop) (x : Emit α) : Prop :=
  ∀ (sheet sheet' : Sheet) (a : α), K (part sheet) → x scene sheet = (.ok a, sheet') → P a ∧ part sheet' = part sheet

/-- A success leaves the writer exactly as it is and gives a value with a property. -/
abbrev Yields (scene : Scene) (P : α → Prop) (x : Emit α) : Prop := YieldsOn Sheet.writer (fun _ => True) scene P x

section YieldsOn

variable {σ : Type} {part : Sheet → σ} {K : σ → Prop}

theorem Keeps.yields {x : Emit α} (keeps : Keeps part x) : YieldsOn part K scene (fun _ => True) x := by
  intro sheet sheet' a _ run
  have kept := keeps scene sheet
  rw [run] at kept
  exact ⟨trivial, kept⟩

namespace YieldsOn

variable {R : α → Prop} {S : β → Prop}

variable {a : α} {f : α → Emit β} {x : Emit α}

theorem pure (h : R a) : YieldsOn part K scene R (Pure.pure a) := by
  intro sheet sheet' b _ run
  cases run
  exact ⟨h, rfl⟩

theorem bind (first : YieldsOn part K scene R x) (next : ∀ a, R a → YieldsOn part K scene S (f a)) :
    YieldsOn part K scene S (x >>= f) := by
  intro sheet sheet' b start run
  obtain ⟨a, inner, one, two⟩ := bind_eq_ok run
  obtain ⟨given, kept⟩ := first sheet inner a start one
  obtain ⟨result, kept'⟩ := next a given inner sheet' b (kept ▸ start) two
  exact ⟨result, kept'.trans kept⟩

theorem mono {R' : α → Prop} (h : YieldsOn part K scene R x) (weaker : ∀ a, R a → R' a) : YieldsOn part K scene R' x :=
  fun sheet sheet' a start run => (h sheet sheet' a start run).imp_left (weaker a)

/-- A value that is read from the scene. -/
theorem reads (read : ∀ sheet, x scene sheet = (.ok a, sheet)) : YieldsOn part K scene (· = a) x := by
  intro sheet sheet' b _ run
  rw [read] at run
  cases run
  exact ⟨rfl, rfl⟩

/-- A value that is known, and what is computed from it. -/
theorem andThen (first : YieldsOn part K scene (· = a) x) (next : YieldsOn part K scene S (f a)) :
    YieldsOn part K scene S (x >>= f) := first.bind fun _ same => same ▸ next

theorem mapM {T : β → α → Prop} {f : β → Emit α} {l : List β} (each : ∀ b ∈ l, YieldsOn part K scene (T b) (f b)) :
    YieldsOn part K scene (Forall₂ T l) (l.mapM f) := by
  induction l with
  | nil => exact .pure .nil
  | cons b l ih =>
    rw [mapM_cons]
    refine (each b mem_cons_self).bind fun a ha => ?_
    exact (ih fun c hc => each c (mem_cons_of_mem _ hc)).bind fun as has => .pure (.cons ha has)

end YieldsOn

/-! ## Names -/

variable (i : Import) (t : Option Ty) (h : TypeHead)

theorem yields_typeName [Noteless part] (own : Ownership) :
    YieldsOn part K scene (· = scene.target.typeNameOpt scene.world.index own t) (typeName t own) :=
  (keeps_note t).yields.bind fun _ _ => .reads fun _ => rfl

end YieldsOn

variable (i : Import) (t : Option Ty) (h : TypeHead)

theorem yields_declaredTypeName (isWeak : Bool) :
    Yields scene (· = scene.target.typeNameOpt scene.world.index (scene.target.ownership t true isWeak) t)
      (declaredTypeName t isWeak) :=
  .andThen (.reads (a := scene.target) fun _ => rfl) (yields_typeName t _)

theorem yields_usedTypeName :
    Yields scene (· = scene.target.typeNameOpt scene.world.index (scene.target.ownership t false false) t)
      (usedTypeName t) :=
  .andThen (.reads (a := scene.target) fun _ => rfl) (yields_typeName t _)

theorem declaredName_apply (sheet : Sheet) :
    declaredName h scene sheet = (.ok (scene.target.declaredName scene.world.index h), sheet) := rfl

/-! ## What an emission adds -/

/-- **A success adds a text with a property**, from the start of a line on one level to the start of a line on another. -/
def Adds (scene : Scene) (n m : Nat) (P : String → Prop) (x : Emit Unit) : Prop :=
  ∀ sheet sheet' : Sheet, sheet.writer.AtLine scene.target.dialect.indent n → x scene sheet = (.ok (), sheet') →
    ∃ s, P s ∧ sheet'.writer = sheet.writer.extended m s

namespace Adds

variable {f : Unit → Emit Unit} {x : Emit Unit}

theorem mono (h : Adds scene n m P x) (weaker : ∀ s, P s → Q s) : Adds scene n m Q x := by
  intro sheet sheet' start run
  obtain ⟨s, hs, wrote⟩ := h sheet sheet' start run
  exact ⟨s, weaker s hs, wrote⟩

theorem done (h : P "") : Adds scene n n P (pure ()) := by
  intro sheet sheet' start run
  cases run
  exact ⟨"", h, (Writer.extended_empty start).symm⟩

/-- Something that fails adds nothing. -/
theorem fails (h : ∀ sheet : Sheet, ∃ f, (x scene sheet).1 = .error f) : Adds scene n m P x := by
  intro sheet sheet' _ run
  obtain ⟨f, failed⟩ := h sheet
  rw [run] at failed
  cases failed

theorem bind (first : Adds scene n m Q x) (next : ∀ a, Q a → Adds scene m k (fun b => P (a ++ b)) (f ())) :
    Adds scene n k P (x >>= f) := by
  intro sheet sheet' start run
  obtain ⟨_, inner, one, two⟩ := bind_eq_ok run
  obtain ⟨a, ha, wrote⟩ := first sheet inner start one
  obtain ⟨b, hb, wrote'⟩ := next a ha inner sheet' (wrote ▸ start.extended a) two
  exact ⟨a ++ b, hb, by rw [wrote', wrote, Writer.extended_extended]⟩

/-- A text that is known, and what is written behind it. -/
theorem andThen {a : String} (first : Adds scene n m (· = a) x) (next : Adds scene m k (fun b => P (a ++ b)) (f ())) :
    Adds scene n k P (x >>= f) :=
  first.bind fun _ same => same ▸ next

/-- A value that is computed without writing. -/
theorem given {R : α → Prop} {x : Emit α} {f : α → Emit Unit} (first : Yields scene R x)
    (next : ∀ a, R a → Adds scene n m P (f a)) : Adds scene n m P (x >>= f) := by
  intro sheet sheet' start run
  obtain ⟨a, inner, one, two⟩ := bind_eq_ok run
  obtain ⟨given, kept⟩ := first sheet inner a trivial one
  obtain ⟨s, hs, wrote⟩ := next a given inner sheet' (kept ▸ start) two
  exact ⟨s, hs, wrote.trans (by rw [kept])⟩

/-- A value that is read from the scene. -/
theorem reads {x : Emit α} {f : α → Emit Unit} {a : α} (read : ∀ sheet, x scene sheet = (.ok a, sheet))
    (next : Adds scene n m P (f a)) : Adds scene n m P (x >>= f) := by
  intro sheet sheet' start run
  rw [bind_ok (read sheet)] at run
  exact next sheet sheet' start run

theorem ite {c : Prop} [Decidable c] {y : Emit Unit} (yes : c → Adds scene n m P x) (no : ¬ c → Adds scene n m P y) :
    Adds scene n m P (if c then x else y) := by
  split
  · next h => exact yes h
  · next h => exact no h

/-- One part of the text for each element. -/
theorem forM {T : β → String → Prop} {f : β → Emit Unit} {l : List β} (each : ∀ b ∈ l, Adds scene n n (T b) (f b)) :
    Adds scene n n (fun s => ∃ parts, Forall₂ T l parts ∧ s = String.join parts) (l.forM f) := by
  induction l with
  | nil => exact .done ⟨[], .nil, rfl⟩
  | cons b l ih =>
    refine Adds.bind (each b mem_cons_self) fun part hpart => ?_
    refine (ih fun c hc => each c (mem_cons_of_mem _ hc)).mono ?_
    rintro s ⟨parts, hparts, rfl⟩
    exact ⟨part :: parts, .cons hpart hparts, String.join_cons.symm⟩

theorem inMember (h : Adds scene n m P x) (member : Member) : Adds scene n m P (inMember member x) := by
  intro sheet sheet' start run
  obtain ⟨outcome, rfl⟩ := Prod.mk.inj run
  let inner : Sheet := { sheet with member := some member, inConstructor := member.kind = .constructor }
  exact h inner (x scene inner).2 start (Prod.ext outcome rfl)

end Adds

/-! ## Lines and blocks -/

def lineAt (scene : Scene) (n : Nat) (s : String) : String := lineOn scene.target.dialect.indent n s

def linesAt (scene : Scene) (n : Nat) (ls : List String) : String := linesOn scene.target.dialect.indent n ls

theorem adds_line (s : String) : Adds scene n n (· = lineAt scene n s) (line s) := by
  intro sheet sheet' start run
  cases run
  exact ⟨_, rfl, Writer.writeLine_extended start s⟩

theorem adds_blankLine : Adds scene n n (· = "\n") blankLine := by
  intro sheet sheet' start run
  cases run
  exact ⟨_, rfl, Writer.blankLine_extended start⟩

theorem adds_indent : Adds scene n (n + 1) (· = "") indent := by
  intro sheet sheet' start run
  cases run
  exact ⟨_, rfl, Writer.indent_extended start⟩

theorem adds_outdent : Adds scene (n + 1) n (· = "") outdent := by
  intro sheet sheet' start run
  cases run
  exact ⟨_, rfl, Writer.outdent_extended start⟩

theorem adds_lines (ls : List String) : Adds scene n n (· = linesAt scene n ls) (lines ls) := by
  induction ls with
  | nil => exact .done rfl
  | cons s ls ih =>
    refine (adds_line s).bind fun a ha => ih.mono fun b hb => ?_
    rw [ha, hb, lineAt, linesAt, linesAt, linesOn_cons]

def opening (scene : Scene) (n : Nat) (head : String) : String :=
  if scene.target.dialect.braceOnOwnLine then linesAt scene n [head, "\x7b"] else lineAt scene n (head ++ " \x7b")

variable {f : Unit → Emit Unit} {head : String} {sheet' : Sheet} {x : Emit Unit}

theorem adds_openBlock (some : head ≠ "") : Adds scene n (n + 1) (· = opening scene n head) (openBlock head) := by
  unfold openBlock
  rw [if_neg some]
  refine .reads (fun _ => rfl) ?_
  refine .ite (fun ownLine => ?_) fun sameLine => ?_
  · refine (adds_line _).andThen ((adds_line _).andThen (adds_indent.mono ?_))
    rintro _ rfl
    rw [opening, if_pos ownLine, linesAt, linesOn_cons, linesOn_cons]
    rfl
  · refine (adds_line _).andThen (adds_indent.mono ?_)
    rintro _ rfl
    rw [opening, if_neg sameLine, String.append_empty]

theorem adds_closing : Adds scene (n + 1) n (· = lineAt scene n "\x7d") (do closeBlock; endLine) := by
  intro sheet sheet' start run
  cases run
  exact ⟨_, rfl, Writer.closing_extended start "" (by decide)⟩

/-- The end of a block, and what follows. -/
theorem Adds.closing (next : Adds scene n k (fun b => P (lineAt scene n "\x7d" ++ b)) (f ())) :
    Adds scene (n + 1) k P (closeBlock >>= fun _ => endLine >>= f) := by
  simpa only [bind_assoc] using adds_closing.andThen next

theorem adds_closingSemicolon :
    Adds scene (n + 1) n (· = lineAt scene n "\x7d;") (do closeBlock; write ";"; endLine) := by
  intro sheet sheet' start run
  cases run
  exact ⟨_, rfl, Writer.closing_extended start ";" (by decide)⟩

/-- The end of a block with a semicolon behind it, and what follows. -/
theorem Adds.closingSemicolon (next : Adds scene n k (fun b => P (lineAt scene n "\x7d;" ++ b)) (f ())) :
    Adds scene (n + 1) k P (closeBlock >>= fun _ => write ";" >>= fun _ => endLine >>= f) := by
  simpa only [bind_assoc] using adds_closingSemicolon.andThen next

def braced (scene : Scene) (n : Nat) (head inside : String) : String :=
  opening scene n head ++ inside ++ lineAt scene n "\x7d"

theorem adds_braces {inside : Emit Unit} (some : head ≠ "") (h : Adds scene (n + 1) (n + 1) P inside) :
    Adds scene n n (fun s => ∃ text, P text ∧ s = braced scene n head text)
      (do openBlock head; inside; closeBlock; endLine) := by
  refine (adds_openBlock some).andThen (h.bind fun text wrote => adds_closing.mono ?_)
  rintro _ rfl
  exact ⟨text, wrote, by rw [braced, String.append_assoc]⟩

theorem adds_lineBlock (some : head ≠ "") (ls : List String) :
    Adds scene n n (· = braced scene n head (linesAt scene (n + 1) ls)) (lineBlock head ls) := by
  refine (adds_braces some (adds_lines ls)).mono ?_
  rintro s ⟨_, rfl, rfl⟩
  rfl

/-! ## Bodies -/

variable {r : Emitter} {F : Imports → List String → String → Prop}

theorem adds_stmt (tidy : r.Tidy) (s : Stmt) : Adds scene n n (fun _ => True) (r.stmt s) := by
  intro sheet sheet' start run
  obtain ⟨written, reached⟩ := tidy.parts.stmt s n scene sheet start.level_eq
  rw [run] at written reached
  obtain ⟨added, wrote⟩ := written.eq_extended (reached () rfl) (tidy.endsLine s scene sheet sheet' run)
  exact ⟨added, trivial, wrote⟩

theorem adds_body (tidy : r.Tidy) (s : Option Stmt) : Adds scene n n (fun _ => True) (r.body s) := by
  cases s with
  | none => exact .done trivial
  | some s =>
    unfold Emitter.body
    dsimp only
    split
    · exact (Adds.forM fun s _ => adds_stmt tidy s).mono fun _ _ => trivial
    · exact adds_stmt tidy s

theorem adds_bodyBlock (tidy : r.Tidy) (some : head ≠ "") (body : Option Stmt) (before : List String) :
    Adds scene n n (fun s => ∃ inside, s = braced scene n head (linesAt scene (n + 1) before ++ inside))
      (bodyBlock r head body before) := by
  refine (adds_openBlock some).andThen ((adds_lines before).andThen ((adds_body tidy body).bind fun inside _ => ?_))
  refine adds_closing.mono ?_
  rintro _ rfl
  exact ⟨inside, by simp only [braced, String.append_assoc]⟩

/-! ## Files -/

theorem atLine_blank (scene : Scene) : scene.blank.writer.AtLine scene.target.dialect.indent 0 := by
  refine ⟨?_, rfl, rfl⟩
  change (if scene.target.dialect.indent = "" then _ else _) = _
  cases scene.target <;> rfl

/-- **A success leaves a text behind what is there**, from the start of a line on the outermost level. The text may depend on
the imports and on the lines that are required. -/
def Leaves (scene : Scene) (P : Imports → List String → String → Prop) (x : Emit Unit) : Prop :=
  ∀ sheet sheet' : Sheet, sheet.writer.AtLine scene.target.dialect.indent 0 → x scene sheet = (.ok (), sheet') →
    ∃ s, P sheet'.imports sheet'.requirements s ∧ sheet.writer.Extends sheet'.writer ∧
      sheet'.writer.top.text = sheet.writer.top.text ++ s

theorem Adds.leaves (h : Adds scene 0 m P x) : Leaves scene (fun _ _ => P) x := by
  intro sheet sheet' start run
  obtain ⟨s, hs, wrote⟩ := h sheet sheet' start run
  rw [wrote]
  exact ⟨s, hs, Writer.extends_extended _ m s, rfl⟩

theorem Grows.leaves (h : Grows x) : Leaves scene (fun _ _ _ => True) x := by
  intro sheet sheet' _ run
  have added := h scene sheet
  rw [run] at added
  obtain ⟨s, text⟩ := added.text
  exact ⟨s, trivial, added, text⟩

/-- **The text of a file**: the text of its head, and behind it the text of its declaration. -/
theorem text_file {declaration head : Emit Unit}
    (body : Leaves scene (fun _ _ => P) declaration) (front : Leaves scene F head)
    (run : (file declaration head).runOn scene = (.ok (), sheet')) :
    ∃ a b, F sheet'.imports sheet'.requirements a ∧ P b ∧ sheet'.writer.text = a ++ b := by
  have start := atLine_blank scene
  obtain ⟨text, sheet₁, captured, rest⟩ := bind_eq_ok run
  -- The declaration is written into a buffer of its own, which goes on where the blank sheet stands.
  have pushed : scene.blank.writer.push.AtLine scene.target.dialect.indent 0 :=
    ⟨start.unit_eq, start.level_eq, start.lineStart⟩
  have keeps : ∀ inner, declaration scene { scene.blank with writer := scene.blank.writer.push } = (.ok (), inner) →
      scene.blank.writer.push.Extends inner.writer := by
    intro inner wrote
    obtain ⟨_, -, added, -⟩ := body _ inner pushed wrote
    exact added
  obtain ⟨inner, wrote, rfl, rfl⟩ := capture_eq_ok keeps captured
  obtain ⟨b, hb, -, written⟩ := body _ inner pushed wrote
  obtain ⟨_, sheet₂, wroteHead, last⟩ := bind_eq_ok rest
  obtain ⟨a, ha, added, writtenHead⟩ := front { inner with writer := scene.blank.writer } sheet₂ start wroteHead
  cases last
  refine ⟨a, b, ha, hb, ?_⟩
  have body : inner.writer.top.text = b := written.trans String.empty_append
  have head : sheet₂.writer.top.text = a := writtenHead.trans String.empty_append
  have flat : (sheet₂.writer.writeRaw inner.writer.top.text).below = [] := added.below
  rw [Writer.text, flat]
  change (sheet₂.writer.top.append inner.writer.top.text).text = a ++ b
  rw [Buffer.append_text, body, head]

/-! ## Heads of files -/

/-- Some text is added, whichever it is. -/
abbrev AddsText (scene : Scene) (n m : Nat) (x : Emit Unit) : Prop := Adds scene n m (fun _ => True) x

theorem Adds.text (h : Adds scene n m P x) : AddsText scene n m x := h.mono fun _ _ => trivial

theorem Adds.behind (first : Adds scene n m P x) (next : AddsText scene m k (f ())) :
    AddsText scene n k (x >>= f) := first.bind fun _ _ => next

theorem Adds.computed {x : Emit α} {f : α → Emit Unit} (silent : Silent x) (next : ∀ a, AddsText scene n m (f a)) :
    AddsText scene n m (x >>= f) := .given silent.yields fun a _ => next a

theorem addsText_done : AddsText scene n n (pure ()) := .done trivial

@[grind ←] theorem silent_imports : Silent imports := keeps_get.bind fun _ => .pure _

@[grind ←] theorem silent_requirements : Silent requirements := keeps_get.bind fun _ => .pure _

@[grind ←] theorem silent_pathOf (kind : ArtifactKind) : Silent (pathOf h kind) :=
  keeps_target.bind fun _ => keeps_index.bind fun _ => .pure _

@[grind ←] theorem silent_cppInclude? : Silent (cppInclude? h) := by
  unfold cppInclude?
  grind

@[grind ←] theorem silent_cppForward? : Silent (cppForward? h) := by
  unfold cppForward?
  grind

@[grind ←] theorem silent_cppHeaderImport : Silent (cppHeaderImport i) := by
  unfold cppHeaderImport
  grind

@[grind ←] theorem silent_rustImport : Silent (rustImport i) := by
  unfold rustImport
  grind

@[grind ←] theorem silent_typescriptImport : Silent (typescriptImport i) := by
  unfold typescriptImport
  grind

/-! ## Files of all targets -/

/-- What stands in a file behind its head. -/
def fileBody (r : Emitter) (scene : Scene) : Emit Unit :=
  match scene.target, scene.artifact.kind with
  | .cpp, .definition => cppNamespace (cppDefinitions r true (scene.decl.members.filter hasDefinition))
  | .cpp, _ => cppNamespace (cppDeclaration r)
  | .csharp, _ => csharpDeclaration r
  | .java, _ => javaDeclaration r
  | .rust, _ => rustDeclaration r
  | .typescript, _ => typescriptDeclaration r

def fileHead (scene : Scene) : Emit Unit :=
  match scene.target, scene.artifact.kind with
  | .cpp, .definition => cppSourceHead
  | .cpp, _ => cppHeaderHead
  | .csharp, _ => csharpHead
  | .java, _ => javaHead
  | .rust, _ => rustHead
  | .typescript, _ => typescriptHead

theorem grows_fileHead (scene : Scene) : Grows (fileHead scene) := by
  unfold fileHead
  split
  · unfold cppSourceHead
    grind
  · refine (grows_line _).bind fun _ => grows_blankLine.bind fun _ => (grows_line _).bind fun _ => ?_
    grind
  · refine silent_decl.bind_grows fun d => silent_imports.bind_grows fun _ => silent_requirements.bind_grows fun _ => ?_
    refine (grows_lines _).bind fun _ => ?_
    split
    · grind
    · grind
  · unfold javaHead
    grind
  · refine (grows_line _).bind fun _ => grows_blankLine.bind fun _ => (grows_line _).bind fun _ => ?_
    grind
  · unfold typescriptHead
    grind

theorem cppFile_apply (r : Emitter) (scene : Scene) (sheet : Sheet) (cpp : scene.target = .cpp) :
    cppFile r scene sheet = file (fileBody r scene) (fileHead scene) scene sheet := by
  rw [cppFile, bind_ok (show (read : Emit Scene) scene sheet = (.ok scene, sheet) from rfl), fileBody, fileHead, cpp]
  cases scene.artifact.kind with
  | definition => exact bind_ok (show decl scene sheet = (.ok scene.decl, sheet) from rfl)
  | _ => rfl

/-- A file that is written is made of a head and a body. -/
theorem artifactFile_eq {sheet : Sheet} (run : artifactFile scene sheet = (.ok (), sheet')) :
    file (fileBody scene.emitter scene) (fileHead scene) scene sheet = (.ok (), sheet') := by
  rw [artifactFile, bind_ok (show (read : Emit Scene) scene sheet = (.ok scene, sheet) from rfl)] at run
  generalize scene.emitter = r at run ⊢
  cases target : scene.target with
  | cpp =>
    rw [target] at run
    exact (cppFile_apply r scene sheet target).symm.trans run
  | typescript =>
    rw [fileBody, fileHead, target]
    rw [target] at run
    change typescriptFile r scene sheet = _ at run
    rw [typescriptFile, bind_ok (show decl scene sheet = (.ok scene.decl, sheet) from rfl)] at run
    cases overloaded : scene.decl.overloaded? with
    | none =>
      rw [overloaded] at run
      exact run
    | some what =>
      rw [overloaded] at run
      cases run
  | _ =>
    rw [fileBody, fileHead, target]
    rw [target] at run
    exact run

theorem text_artifactFile
    (body : Leaves scene (fun _ _ => P) (fileBody scene.emitter scene)) (front : Leaves scene F (fileHead scene))
    (run : artifactFile.runOn scene = (.ok (), sheet')) :
    ∃ a b, F sheet'.imports sheet'.requirements a ∧ P b ∧ sheet'.writer.text = a ++ b :=
  text_file body front (artifactFile_eq run)

end Emit

namespace Compilation

variable {options : Options} {c : Compilation} {t : Target} {d : TypeDecl}

/-! ## Units -/

/-- **What stands behind the head of an output** is what the body of its file adds. -/
theorem text_of_mem_unit {o : Output} {P : Artifact → String → Prop} (ho : o ∈ (emitUnit options c t d).outputs)
    (body : ∀ a ∈ t.artifacts c.world.index d.head,
      Emit.Adds (fileScene options c t d a) 0 0 (P a) (Emit.fileBody (fileScene options c t d a).emitter
        (fileScene options c t d a))) :
    ∃ a ∈ t.artifacts c.world.index d.head, ∃ front text, P a text ∧ o.text = front ++ text := by
  obtain ⟨succeeds, full⟩ := succeeds_of_mem_outputs ho
  have files := forall₂_outputs succeeds full
  obtain ⟨a, ha, -, sheet, run, text⟩ := exists_mem_of_forall₂ files ho
  obtain ⟨front, inside, -, written, whole⟩ :=
    Emit.text_artifactFile (body a ha).leaves (Emit.grows_fileHead _).leaves run
  exact ⟨a, ha, front, inside, written, text.trans whole⟩

end Compilation

end Polyglot
