import Polyglot.Proofs.Writing.Text

/-!
# Texts in pieces

What stands in a file is one piece behind the other, and each piece shows at most one thing. So what a file shows can be read
off as a list, without its text.
-/

namespace Polyglot

open List

variable {π σ : Type}

/-- A kind of pieces: the text of each, and what it shows. -/
structure Layout (π σ : Type) where
  text : π → String
  shown? : π → Option σ

/-- The text is made of pieces that show some things, in order. -/
def Layout.Makes (layout : Layout π σ) (things : List σ) (text : String) : Prop :=
  ∃ pieces : List π, text = String.join (pieces.map layout.text) ∧ pieces.filterMap layout.shown? = things

namespace Layout.Makes

variable {layout : Layout π σ} {things more : List σ} {text rest : String}

theorem none : layout.Makes [] "" := ⟨[], rfl, rfl⟩

theorem piece (p : π) : layout.Makes (layout.shown? p).toList (layout.text p) := by
  refine ⟨[p], ?_, ?_⟩
  · rw [map_singleton, String.join_cons, String.join_nil, String.append_empty]
  · cases h : layout.shown? p with
    | none => rw [filterMap_cons_none h, filterMap_nil, Option.toList_none]
    | some r => rw [filterMap_cons_some h, filterMap_nil, Option.toList_some]

theorem append (first : layout.Makes things text) (second : layout.Makes more rest) :
    layout.Makes (things ++ more) (text ++ rest) := by
  obtain ⟨pieces, rfl, rfl⟩ := first
  obtain ⟨others, rfl, rfl⟩ := second
  exact ⟨pieces ++ others, by rw [map_append, String.join_append], by rw [filterMap_append]⟩

end Layout.Makes

namespace Emit

variable {scene : Scene} {n : Nat} {layout : Layout π σ} {things more : List σ}

/-- The emission of pieces that show some things. -/
abbrev Lays (scene : Scene) (n : Nat) (layout : Layout π σ) (things : List σ) (x : Emit Unit) : Prop :=
  Adds scene n n (layout.Makes things) x

namespace Lays

theorem done : Lays scene n layout [] (pure ()) := Adds.done .none

variable {f : Unit → Emit Unit} {x : Emit Unit} {c : Prop}

theorem bind (first : Lays scene n layout things x) (next : Lays scene n layout more (f ())) :
    Lays scene n layout (things ++ more) (x >>= f) :=
  Adds.bind first fun _ here => Adds.mono next fun _ there => here.append there

/-- Pieces that show nothing, and what follows them. -/
theorem behind (first : Lays scene n layout [] x) (next : Lays scene n layout things (f ())) :
    Lays scene n layout things (x >>= f) := first.bind next

/-- Pieces with nothing but pieces behind them that show nothing. -/
theorem before (first : Lays scene n layout things x) (next : Lays scene n layout [] (f ())) :
    Lays scene n layout things (x >>= f) := by
  rw [← append_nil things]
  exact first.bind next

/-- A step that is taken under a condition, and what follows it. -/
theorem when [Decidable c] (step : Lays scene n layout things x) (next : Lays scene n layout more (f ())) :
    Lays scene n layout ((if c then things else []) ++ more) (if c then x >>= f else f ()) := by
  split
  · exact step.bind next
  · exact next

/-- Something that is shown under a condition. -/
theorem ite [Decidable c] {y : Emit Unit} (yes : c → Lays scene n layout things x)
    (no : ¬ c → Lays scene n layout more y) : Lays scene n layout (if c then things else more) (if c then x else y) := by
  split
  · next h => exact yes h
  · next h => exact no h

theorem forM {α : Type} {f : α → Emit Unit} {shown : α → List σ} {l : List α}
    (each : ∀ a ∈ l, Lays scene n layout (shown a) (f a)) : Lays scene n layout (l.flatMap shown) (l.forM f) := by
  induction l with
  | nil => exact done
  | cons a l ih =>
    exact bind (each a mem_cons_self) (ih fun b hb => each b (mem_cons_of_mem _ hb))

theorem piece {text : String} (h : Adds scene n n (· = text) x) (p : π) (same : text = layout.text p)
    (shown : (layout.shown? p).toList = things) : Lays scene n layout things x := by
  refine Adds.mono h ?_
  rintro _ rfl
  rw [same, ← shown]
  exact .piece p

end Lays

end Emit

/-! ## Members -/

theorem TypeDecl.map_snd_withPrevious (d : TypeDecl) : d.withPrevious.map Prod.snd = d.members := by
  rw [TypeDecl.withPrevious, map_snd_zip (by simp)]

/-- A member without a new name, as it is entered. -/
structure Member.IsPlain (m : Member) : Prop where
  rename : m.symbol.rename = ""
  kind : m.symbol.kind = m.kind.symbolKind


end Polyglot
