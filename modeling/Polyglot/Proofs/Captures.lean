import Polyglot.Proofs.Writing.Basic

/-!
# Captures

A program that writes takes steps on the top buffer and captures what other programs write. It is handed what a capture
gives, the text or the fault, and may go on after either.

Whatever such a program does, it never looks below the buffer it starts with: it does the same on any stack of buffers
(`Framed`). So a capture leaves all buffers as they were.
-/

namespace Polyglot

/-! ## Programs -/

namespace Writer

/-- One step of writing. -/
inductive Step where
  | write (s : String)
  | writeRaw (s : String)
  | writeLine (s : String)
  | writeLines (s : String)
  | endLine
  | blankLine
  | indent
  | outdent

def Step.run : Step → Writer → Writer
  | write s => Writer.write s
  | writeRaw s => Writer.writeRaw s
  | writeLine s => Writer.writeLine s
  | writeLines s => Writer.writeLines s
  | endLine => Writer.endLine
  | blankLine => Writer.blankLine
  | indent => Writer.indent
  | outdent => Writer.outdent

/-- **A program that writes.** It ends well or in a fault; what follows a capture depends on what the capture gave. -/
inductive Script where
  | done
  | fail (f : Fault)
  | step (s : Step) (next : Script)
  | capture (inside : Script) (next : Except Fault String → Script)

/-- A writer with nothing but an empty buffer, which goes on where the top one stands. -/
def alone (w : Writer) : Writer :=
  { unit := w.unit, top := { level := w.top.level, atLineStart := w.top.atLineStart } }

end Writer

/-- The outcome of an emission as a value: a fault is caught. -/
def Emit.outcome {α : Type} (x : Emit α) : Emit (Except Fault α) := fun scene sheet =>
  let (outcome, sheet) := x scene sheet
  (.ok outcome, sheet)

/-- A program as an emission. -/
def Writer.Script.emit : Writer.Script → Emit Unit
  | done => pure ()
  | fail f => throw f
  | step s next => do
    Emit.onWriter s.run
    next.emit
  | capture inside next => do
    let result ← Emit.outcome (Emit.capture inside.emit)
    (next result).emit

/-! ## Frames -/

namespace Writer

def above (below : List Buffer) (w : Writer) : Writer := { w with below }

/-- A step on the top buffer alone; the buffer becomes what it becomes on any stack. -/
structure Topmost (f : Writer → Writer) : Prop where
  unit : ∀ w, (f w).unit = w.unit
  above : ∀ below w, f (w.above below) = (f w).above below

theorem topmost_mapTop (f : String → Buffer → Buffer) : Topmost fun w => w.mapTop (f w.unit) where
  unit _ := rfl
  above _ _ := rfl

theorem Topmost.comp {f g : Writer → Writer} (hf : Topmost f) (hg : Topmost g) : Topmost fun w => g (f w) where
  unit w := (hg.unit (f w)).trans (hf.unit w)
  above below w := by rw [hf.above, hg.above]

theorem topmost_writeLines (s : String) : Topmost (writeLines s) := by
  unfold writeLines
  generalize Text.split '\n' (dropBreaks s) = lines
  induction lines with
  | nil => exact ⟨fun _ => rfl, fun _ _ => rfl⟩
  | cons line lines ih =>
    refine Topmost.comp (f := fun w => if line = "" then w.blankLine else w.writeLine line) ?_ ih
    by_cases empty : line = ""
    · simp only [if_pos empty]
      exact topmost_mapTop fun _ b => b.endLine.breakLine
    · simp only [if_neg empty]
      exact topmost_mapTop fun unit b => (b.write unit line).breakLine

theorem Step.topmost (s : Step) : Topmost s.run := by
  cases s with
  | write s => exact topmost_mapTop fun unit b => b.write unit s
  | writeRaw s => exact topmost_mapTop fun _ b => b.append s
  | writeLine s => exact topmost_mapTop fun unit b => (b.write unit s).breakLine
  | writeLines s => exact topmost_writeLines s
  | endLine => exact topmost_mapTop fun _ b => b.endLine
  | blankLine => exact topmost_mapTop fun _ b => b.endLine.breakLine
  | indent => exact topmost_mapTop fun _ b => { b with level := b.level + 1 }
  | outdent => exact topmost_mapTop fun _ b => { b with level := b.level - 1 }

end Writer

/-- The sheet with another writer. -/
def Sheet.mapWriter (f : Writer → Writer) (sheet : Sheet) : Sheet := { sheet with writer := f sheet.writer }

abbrev Sheet.above (below : List Buffer) : Sheet → Sheet := Sheet.mapWriter (Writer.above below)

namespace Emit

variable {α β : Type} {scene : Scene} {sheet : Sheet}

/-- **An emission that never looks below the top buffer**: it does the same on any stack, and leaves the stack alone. -/
structure Framed (x : Emit α) : Prop where
  unit : ∀ scene sheet, (x scene sheet).2.writer.unit = sheet.writer.unit
  above : ∀ below scene sheet, x scene (sheet.above below) = ((x scene sheet).1, (x scene sheet).2.above below)

namespace Framed

theorem pure (a : α) : Framed (Pure.pure a) := ⟨fun _ _ => rfl, fun _ _ _ => rfl⟩

theorem throw (f : Fault) : Framed (MonadExcept.throw f : Emit α) := ⟨fun _ _ => rfl, fun _ _ _ => rfl⟩

theorem onWriter {f : Writer → Writer} (topmost : Writer.Topmost f) : Framed (onWriter f) where
  unit _ sheet := topmost.unit sheet.writer
  above below _ sheet := by
    show (Except.ok (), sheet.mapWriter fun w => f (w.above below)) = (Except.ok (), sheet.mapWriter fun w => (f w).above below)
    simp only [topmost.above]

variable {x : Emit α}

theorem bind {f : α → Emit β} (first : Framed x) (next : ∀ a, Framed (f a)) : Framed (x >>= f) where
  unit scene sheet := by
    have unit := first.unit scene sheet
    rw [bind_apply]
    rcases run : x scene sheet with ⟨outcome, inner⟩
    rw [run] at unit
    cases outcome with
    | error e => exact unit
    | ok a => exact ((next a).unit scene inner).trans unit
  above below scene sheet := by
    have above := first.above below scene sheet
    rw [bind_apply, bind_apply, above]
    rcases x scene sheet with ⟨outcome, inner⟩
    cases outcome with
    | error e => rfl
    | ok a => exact (next a).above below scene inner

theorem outcome (framed : Framed x) : Framed (Emit.outcome x) where
  unit := framed.unit
  above below scene sheet := by
    show (Except.ok (x scene (sheet.above below)).1, (x scene (sheet.above below)).2) = _
    rw [framed.above]
    rfl

/-- The buffers below the top one are left alone. -/
theorem below (framed : Framed x) (scene : Scene) (sheet : Sheet) : (x scene sheet).2.writer.below = sheet.writer.below := by
  have same : x scene sheet = _ := framed.above sheet.writer.below scene sheet
  rw [same]
  rfl

/-- **A capture of something framed** gives the text of the buffer that was pushed, and puts the writer back. -/
theorem capture_apply {x : Emit Unit} (framed : Framed x) (scene : Scene) (sheet : Sheet) :
    Emit.capture x scene sheet =
      ((x scene (sheet.mapWriter .push)).1.map fun _ => (x scene (sheet.mapWriter .push)).2.writer.top.text,
        (x scene (sheet.mapWriter .push)).2.mapWriter fun _ => sheet.writer) := by
  have below : (x scene (sheet.mapWriter .push)).2.writer.below = sheet.writer.push.below := framed.below scene _
  have unit : (x scene (sheet.mapWriter .push)).2.writer.unit = sheet.writer.push.unit := framed.unit scene _
  unfold Emit.capture
  rw [show ({ sheet with writer := sheet.writer.push } : Sheet) = sheet.mapWriter .push from rfl]
  generalize x scene (sheet.mapWriter .push) = result at below unit ⊢
  obtain ⟨outcome, inner⟩ := result
  have restored : inner.writer.unwind sheet.writer.depth = sheet.writer := Writer.unwind_eq below unit
  have depth : inner.writer.depth = sheet.writer.depth + 1 := congrArg (·.length + 1) below
  cases outcome with
  | error e => simp [Writer.settle, restored, Except.map, Sheet.mapWriter]
  | ok _ => simp [Writer.settle, restored, depth, Except.map, Sheet.mapWriter]

theorem capture {x : Emit Unit} (framed : Framed x) : Framed (Emit.capture x) where
  unit scene sheet := by
    rw [capture_apply framed]
    rfl
  above below scene sheet := by
    -- What is pushed on other buffers is what is pushed here, with those buffers and the top one below it.
    have pushed : (sheet.above below).mapWriter .push = (sheet.mapWriter .push).above (sheet.writer.top :: below) := rfl
    rw [capture_apply framed, capture_apply framed, pushed, framed.above]
    rfl

end Framed

end Emit

/-! ## Whole programs -/

namespace Writer

/-- No program looks below the buffer that it starts with. -/
theorem Script.framed (p : Script) : Emit.Framed p.emit := by
  induction p with
  | done => exact .pure ()
  | fail f => exact .throw f
  | step s next ih => exact (Emit.Framed.onWriter s.topmost).bind fun _ => ih
  | capture inside next ihInside ihNext => exact ihInside.capture.outcome.bind ihNext

/-- **A capture frames what it captures.** However a program ends, with all its nested captures, and whatever stack it finds,
the capture leaves the writer as it was: every buffer, its level, its place in the line, and how many there are. The capture
ends like the program does by itself with an empty buffer that goes on where the top one stands, and gives what is written
there. -/
theorem capture_isolated (p : Script) (scene : Scene) (sheet : Sheet) :
    (Emit.capture p.emit scene sheet).2.writer = sheet.writer ∧
      (Emit.capture p.emit scene sheet).1 =
        (p.emit scene (sheet.mapWriter alone)).1.map fun _ => (p.emit scene (sheet.mapWriter alone)).2.writer.top.text := by
  have pushed : sheet.mapWriter push = (sheet.mapWriter alone).above (sheet.writer.top :: sheet.writer.below) := rfl
  rw [p.framed.capture_apply, pushed, p.framed.above]
  exact ⟨rfl, rfl⟩

/-- Two crashes on two levels are caught, and what was written there is gone. -/
example (scene : Scene) (sheet : Sheet)
    (start : sheet.writer = { unit := "  ", top := { text := "a", level := 1, atLineStart := false } }) :
    let crashes := Script.step .indent <| .step (.writeLine "x") <|
      .capture (.fail (.crash (some "y"))) fun _ => .fail (.crash none)
    Emit.capture (Script.capture crashes fun _ => .step (.writeRaw "b\n") (.step (.write "c") .done)).emit scene sheet =
      (.ok "b\n  c", sheet) := by
  obtain ⟨⟩ := sheet
  cases start
  rfl

end Writer

end Polyglot
