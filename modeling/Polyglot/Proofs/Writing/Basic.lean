import Polyglot.Emit.Basic

/-!
# What an emission does to the writer

Two properties of an emission are kept by putting emissions one behind the other. `Silent x` leaves the writer exactly as it is.
`Writes n m x`, started on level `n`, adds text to the top buffer and leaves the buffers below alone; when it succeeds, the level
is `m` afterwards. A capture of something that keeps the level is silent.
-/

namespace Polyglot

namespace Writer

variable {w w' w'' : Writer}

/-- Text was added to the top buffer, and nothing else. The level may have changed. -/
structure Extends (w w' : Writer) : Prop where
  unit : w'.unit = w.unit
  below : w'.below = w.below
  text : ∃ added, w'.top.text = w.top.text ++ added

namespace Extends

theorem refl (w : Writer) : w.Extends w := ⟨rfl, rfl, "", String.append_empty.symm⟩

theorem trans (first : w.Extends w') (second : w'.Extends w'') : w.Extends w'' := by
  obtain ⟨a, ha⟩ := first.text
  obtain ⟨b, hb⟩ := second.text
  refine ⟨second.unit.trans first.unit, second.below.trans first.below, a ++ b, ?_⟩
  rw [hb, ha, String.append_assoc]

theorem mapTop {f : Buffer → Buffer} (adds : ∃ added, (f w.top).text = w.top.text ++ added) :
    w.Extends (w.mapTop f) := ⟨rfl, rfl, adds⟩

end Extends

/-- Taking the buffer of a capture away restores the writer. -/
theorem unwind_eq (below : w'.below = w.push.below) (unit : w'.unit = w.push.unit) : w'.unwind w.depth = w := by
  have depth : w'.depth - w.depth = 1 := by simp [Writer.depth, below, push]
  simp only [unwind, depth, below]
  rw [unit]
  rfl

theorem settle_eq {ε : Type} {unbalanced : Nat → Nat → ε} {outcome : Except ε Unit} (below : w'.below = w.push.below)
    (unit : w'.unit = w.push.unit) : (w'.settle unbalanced w.depth outcome).2 = w := by
  cases outcome with
  | error e => exact unwind_eq below unit
  | ok _ =>
    unfold settle
    dsimp only
    split <;> exact unwind_eq below unit

end Writer

namespace Buffer

variable {b : Buffer} {unit s : String}

theorem append_text : (b.append s).text = b.text ++ s := by
  unfold append
  split
  · next empty => rw [empty, String.append_empty]
  · rfl

theorem text_append : ∃ added, (b.append s).text = b.text ++ added := ⟨s, append_text⟩

theorem level_append : (b.append s).level = b.level := by
  unfold append
  split <;> rfl

theorem text_write : ∃ added, (b.write unit s).text = b.text ++ added := by
  unfold write
  split
  · exact ⟨"", String.append_empty.symm⟩
  · split <;> exact text_append

theorem level_write : (b.write unit s).level = b.level := by
  unfold write
  split
  · rfl
  · split <;> exact level_append

theorem text_endLine : ∃ added, b.endLine.text = b.text ++ added := by
  unfold endLine
  split
  · exact ⟨"", String.append_empty.symm⟩
  · exact ⟨"\n", rfl⟩

theorem level_endLine : b.endLine.level = b.level := by
  unfold endLine
  split <;> rfl

theorem atLineStart_endLine : b.endLine.atLineStart = true := by
  unfold endLine
  split
  · assumption
  · rfl

end Buffer

/-- A file with nothing in reach. -/
def Scene.bare (t : Target) : Scene := { target := t, world := {}, templates := {}, decl := default, artifact := default }

namespace Sheet

/-- What is around the current place: the member, whether it is a constructor, and the handlers. -/
def around (sheet : Sheet) : Option Member × Bool × List String := (sheet.member, sheet.inConstructor, sheet.handlers)

/-- How the current place is looked at: the flag of a change, and what is around. -/
def bearing (sheet : Sheet) : Bool × Option Member × Bool × List String := (sheet.mutating, sheet.around)

end Sheet

namespace Emit

variable {α β : Type} {n m k : Nat} {scene : Scene} {sheet : Sheet}

/-- One emission behind another. -/
theorem bind_apply (x : Emit α) (f : α → Emit β) (scene : Scene) (sheet : Sheet) :
    (x >>= f) scene sheet =
      match x scene sheet with
      | (.ok a, sheet) => f a scene sheet
      | (.error e, sheet) => (.error e, sheet) := by
  change ExceptT.bindCont (fun a => f a scene) (x scene sheet).1 (x scene sheet).2 = _
  rcases x scene sheet with ⟨_ | _, _⟩ <;> rfl

variable {sheet' : Sheet} {x : Emit α} {f : α → Emit β}

theorem bind_ok {a : α} (h : x scene sheet = (.ok a, sheet')) : (x >>= f) scene sheet = f a scene sheet' := by
  rw [bind_apply, h]

/-- One emission behind another that succeeds. -/
theorem bind_eq_ok {b : β} (h : (x >>= f) scene sheet = (.ok b, sheet')) :
    ∃ a inner, x scene sheet = (.ok a, inner) ∧ f a scene inner = (.ok b, sheet') := by
  rw [bind_apply] at h
  cases result : x scene sheet with
  | mk outcome inner =>
    rw [result] at h
    cases outcome with
    | error e => cases h
    | ok a => exact ⟨a, inner, rfl, h⟩

/-! ## Silence -/

/-- **A part of the sheet is left exactly as it is**, whatever the outcome. -/
def Keeps {σ : Type} (part : Sheet → σ) (x : Emit α) : Prop := ∀ scene sheet, part (x scene sheet).2 = part sheet

/-- Nothing is written. -/
abbrev Silent (x : Emit α) : Prop := Keeps Sheet.writer x

/-- The flag of a change is not turned, and what is around is the same. -/
abbrev Steady (x : Emit α) : Prop := Keeps Sheet.bearing x

/-- A part of the sheet in which no notes are made: it is read off the writer and the bearing. -/
class Noteless {σ : Type} (part : Sheet → σ) : Prop where
  same : ∀ {sheet sheet' : Sheet}, sheet'.writer = sheet.writer → sheet'.bearing = sheet.bearing → part sheet' = part sheet

/-- Such a part that does not show the flag of a change. -/
class Flagless {σ : Type} (part : Sheet → σ) : Prop extends Noteless part where
  free : ∀ (sheet : Sheet) (flag : Bool), part { sheet with mutating := flag } = part sheet

instance : Flagless Sheet.writer where
  same writer _ := writer
  free _ _ := rfl

instance : Flagless Sheet.around where
  same _ bearing := congrArg Prod.snd bearing
  free _ _ := rfl

instance : Flagless Sheet.member where
  same _ bearing := congrArg (·.2.1) bearing
  free _ _ := rfl

section Keeps

variable {σ : Type} {part : Sheet → σ}

namespace Keeps

@[grind ←] theorem pure (a : α) : Keeps part (Pure.pure a) := fun _ _ => rfl

@[grind ←] theorem bind (first : Keeps part x) (next : ∀ a, Keeps part (f a)) : Keeps part (x >>= f) := by
  intro scene sheet
  have kept := first scene sheet
  rw [bind_apply]
  cases result : x scene sheet with
  | mk outcome sheet' =>
    rw [result] at kept
    cases outcome with
    | error e => exact kept
    | ok a => exact (next a scene sheet').trans kept

@[grind ←] theorem mapM {f : β → Emit α} (each : ∀ b, Keeps part (f b)) (l : List β) : Keeps part (l.mapM f) := by
  induction l with
  | nil => exact .pure []
  | cons b l ih =>
    rw [List.mapM_cons]
    exact (each b).bind fun _ => ih.bind fun _ => .pure _

@[grind ←] theorem forM {f : β → Emit Unit} (each : ∀ b, Keeps part (f b)) (l : List β) : Keeps part (l.forM f) := by
  induction l with
  | nil => exact .pure ()
  | cons b l ih => exact (each b).bind fun _ => ih

/-- A note that is made elsewhere. -/
theorem modify {f : Sheet → Sheet} (note : ∀ sheet, part (f sheet) = part sheet) :
    Keeps part (modify f : Emit Unit) := fun _ => note

end Keeps

@[grind ←] theorem Keeps.mutably [Flagless part] {x : Emit α} (keeps : Keeps part x) : Keeps part (mutably x) := by
  intro scene sheet
  have kept := keeps scene { sheet with mutating := true }
  exact (Flagless.free _ _).trans (kept.trans (Flagless.free _ _))

@[grind ←] theorem keeps_throw (f : Fault) : Keeps part (throw f : Emit α) := fun _ _ => rfl

@[grind ←] theorem keeps_read : Keeps part (read : Emit Scene) := fun _ _ => rfl

@[grind ←] theorem keeps_get : Keeps part (get : Emit Sheet) := fun _ _ => rfl

@[grind ←] theorem keeps_ofExcept (x : Except Fault α) : Keeps part (ofExcept x) := by
  cases x with
  | ok a => exact .pure a
  | error f => exact keeps_throw f

@[grind ←] theorem keeps_target : Keeps part target := keeps_read.bind fun _ => .pure _

@[grind ←] theorem keeps_dialect : Keeps part dialect := keeps_target.bind fun _ => .pure _

@[grind ←] theorem keeps_index : Keeps part index := keeps_read.bind fun _ => .pure _

@[grind ←] theorem keeps_unsupported (place : Position) (what : String) :
    Keeps part (unsupported place what : Emit α) := keeps_target.bind fun _ => keeps_throw _

@[grind ←] theorem keeps_crash : Keeps part (crash : Emit α) := keeps_throw _

end Keeps

/-! ## Writing -/

/-- **Text is added to the top buffer**, whatever the outcome; a success leads from one level to another. -/
def Writes (n m : Nat) (x : Emit α) : Prop :=
  ∀ scene sheet, sheet.writer.level = n →
    sheet.writer.Extends (x scene sheet).2.writer ∧
      ∀ a, (x scene sheet).1 = .ok a → (x scene sheet).2.writer.level = m

theorem Keeps.writes (silent : Keeps Sheet.writer x) : Writes n n x := by
  intro scene sheet level
  rw [silent scene sheet]
  exact ⟨.refl _, fun _ _ => level⟩

theorem Writes.pure (a : α) : Writes n n (Pure.pure a) := (Keeps.pure a).writes

theorem Writes.bind (first : Writes n m x) (next : ∀ a, Writes m k (f a)) : Writes n k (x >>= f) := by
  intro scene sheet level
  obtain ⟨written, reached⟩ := first scene sheet level
  rw [bind_apply]
  cases result : x scene sheet with
  | mk outcome sheet' =>
    rw [result] at written reached
    cases outcome with
    | error e => exact ⟨written, nofun⟩
    | ok a =>
      obtain ⟨written', reached'⟩ := next a scene sheet' (reached a rfl)
      exact ⟨written.trans written', reached'⟩

/-- A text that was computed silently is written on. -/
theorem Keeps.bind_writes (silent : Keeps Sheet.writer x) (next : ∀ a, Writes n m (f a)) :
    Writes n m (x >>= f) := silent.writes.bind next

theorem Writes.forM {f : β → Emit Unit} {l : List β} (each : ∀ b ∈ l, Writes n n (f b)) : Writes n n (l.forM f) := by
  induction l with
  | nil => exact .pure ()
  | cons b l ih =>
    exact (each b List.mem_cons_self).bind fun _ => ih fun c hc => each c (List.mem_cons_of_mem _ hc)

theorem Writes.inHandler (writes : Writes n m x) (name : String) : Writes n m (inHandler name x) :=
  fun scene sheet level => writes scene { sheet with handlers := name :: sheet.handlers } level

/-- **A handler is left again**: its variable is pushed, and what happens inside brings the handlers back to the one that is
popped. -/
theorem Keeps.inHandler (keeps : Keeps Sheet.around x) (name : String) : Keeps Sheet.around (inHandler name x) :=
  fun scene sheet => congrArg (fun around => (around.1, around.2.1, around.2.2.tail))
    (keeps scene { sheet with handlers := name :: sheet.handlers })

/-- A step of the writer that adds text to the top buffer. -/
theorem writes_onWriter {f : Writer → Writer} (adds : ∀ w : Writer, w.Extends (f w))
    (level : ∀ w : Writer, w.level = n → (f w).level = m) : Writes n m (onWriter f) :=
  fun _ sheet start => ⟨adds sheet.writer, fun _ _ => level sheet.writer start⟩

variable (s head : String)

theorem writes_write : Writes n n (write s) :=
  writes_onWriter (fun _ => .mapTop Buffer.text_write) fun _ level => Buffer.level_write.trans level

theorem writes_line : Writes n n (line s) := by
  refine writes_onWriter (fun w => .mapTop ?_) fun _ level => Buffer.level_write.trans level
  obtain ⟨added, text⟩ : ∃ added, (w.top.write w.unit s).text = w.top.text ++ added := Buffer.text_write
  exact ⟨added ++ "\n", by rw [Buffer.breakLine, text, String.append_assoc]⟩

theorem writes_endLine : Writes n n endLine :=
  writes_onWriter (fun _ => .mapTop Buffer.text_endLine) fun _ level => Buffer.level_endLine.trans level

theorem writes_indent : Writes n (n + 1) indent :=
  writes_onWriter (fun _ => .mapTop ⟨"", String.append_empty.symm⟩) fun _ level => congrArg (· + 1) level

theorem writes_outdent : Writes (n + 1) n outdent :=
  writes_onWriter (fun _ => .mapTop ⟨"", String.append_empty.symm⟩) fun _ level => congrArg (· - 1) level

theorem writes_openBlock : Writes n (n + 1) (openBlock head) := by
  unfold openBlock
  split
  · exact (writes_line _).bind fun _ => writes_indent
  · refine keeps_dialect.bind_writes fun d => ?_
    split
    · exact (writes_line _).bind fun _ => (writes_line _).bind fun _ => writes_indent
    · exact (writes_line _).bind fun _ => writes_indent

theorem writes_closeBlock : Writes (n + 1) n closeBlock :=
  writes_outdent.bind fun _ => writes_write _

theorem writes_continueBlock : Writes n (n + 1) (continueBlock head) := by
  refine keeps_dialect.bind_writes fun d => ?_
  split
  · exact writes_endLine.bind fun _ => writes_openBlock head
  · exact (writes_line _).bind fun _ => writes_indent

/-! ## The bearing -/

@[grind ←] theorem steady_onWriter (f : Writer → Writer) : Steady (onWriter f) := .modify fun _ => rfl

@[grind ←] theorem steady_write : Steady (write s) := steady_onWriter _

@[grind ←] theorem steady_line : Steady (line s) := steady_onWriter _

@[grind ←] theorem steady_endLine : Steady endLine := steady_onWriter _

@[grind ←] theorem steady_indent : Steady indent := steady_onWriter _

@[grind ←] theorem steady_outdent : Steady outdent := steady_onWriter _

@[grind ←] theorem steady_openBlock : Steady (openBlock head) := by
  unfold openBlock
  grind

@[grind ←] theorem steady_closeBlock : Steady closeBlock := steady_outdent.bind fun _ => steady_write _

@[grind ←] theorem steady_continueBlock : Steady (continueBlock head) := by
  unfold continueBlock
  grind

/-! ## Captures -/

theorem Writes.extends (writes : ∀ n, Writes n n x) {a : α} (h : x scene sheet = (.ok a, sheet')) :
    sheet.writer.Extends sheet'.writer := by
  have kept := (writes _ scene sheet rfl).1
  rwa [h] at kept

/-- **A capture is silent** when what it captures keeps the level. -/
@[grind ←] theorem silent_capture {x : Emit Unit} (writes : ∀ n, Writes n n x) : Silent (capture x) := by
  intro scene sheet
  have kept := (writes _ scene { sheet with writer := sheet.writer.push } rfl).1
  exact Writer.settle_eq kept.below kept.unit

theorem Keeps.of_capture {σ : Type} {part : Sheet → σ} [Noteless part] {x : Emit Unit} (writes : ∀ n, Writes n n x)
    (steady : Steady x) : Keeps part (capture x) :=
  fun scene sheet => Noteless.same (silent_capture writes scene sheet)
    (steady scene { sheet with writer := sheet.writer.push })

/-- What is captured is what was written into a buffer of its own. -/
theorem capture_eq_ok {x : Emit Unit} {text : String}
    (keeps : ∀ inner, x scene { sheet with writer := sheet.writer.push } = (.ok (), inner) →
      sheet.writer.push.Extends inner.writer) (h : capture x scene sheet = (.ok text, sheet')) :
    ∃ inner, x scene { sheet with writer := sheet.writer.push } = (.ok (), inner) ∧ text = inner.writer.top.text ∧
      sheet' = { inner with writer := sheet.writer } := by
  unfold capture at h
  dsimp only at h
  cases run : x scene { sheet with writer := sheet.writer.push } with
  | mk outcome inner =>
    rw [run] at h
    obtain ⟨first, second⟩ := Prod.mk.inj h
    cases outcome with
    | error e => cases first
    | ok _ =>
      have kept := keeps inner run
      have settled : (inner.writer.settle Writer.unbalanced sheet.writer.depth (.ok ())).2 = sheet.writer :=
        Writer.settle_eq kept.below kept.unit
      rw [settled] at second
      refine ⟨inner, rfl, ?_, second.symm⟩
      unfold Writer.settle at first
      dsimp only at first
      split at first
      · exact (Except.ok.inj first).symm
      · cases first

end Emit

end Polyglot
