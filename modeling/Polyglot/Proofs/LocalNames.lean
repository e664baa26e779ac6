import Polyglot.Declare.Basic
import Polyglot.Proofs.FoldedNames
import Polyglot.Proofs.Operators.Faithful
import Polyglot.Proofs.Scoping

/-!
# Names of locals in a target

A local is written under its name in the habit of the target, both where it is declared and where it is used. So a use means
in the target what it means in the document exactly if no two names in reach are written alike. They are where the habit makes
them one name, and where one of them is a reserved word and the other one looks like its escape.
-/

namespace Polyglot

open List Text

/-! ## Names that are written alike -/

namespace Target

variable (t : Target) {a b : String}

theorem escape_inj : t.escape a = t.escape b ↔ a = b := by
  cases t <;> simp [escape]

/-- **When two names are written alike**: in the habit of the target they are one name, or a reserved word and its escape. -/
theorem fitted_eq_iff : t.fitted a = t.fitted b ↔ t.fit a = t.fit b ∨
    t.fit a ∈ t.keywords ∧ t.fit b ∉ t.keywords ∧ t.fit b = t.escape (t.fit a) ∨
    t.fit b ∈ t.keywords ∧ t.fit a ∉ t.keywords ∧ t.fit a = t.escape (t.fit b) := by
  simp only [fitted, identifier]
  split <;> split <;> grind [escape_inj]

theorem folded_fit (name : String) : folded (t.fit name) = folded name := by
  cases t with
  | cpp | csharp => rfl
  | java | typescript => exact folded_lowerFirst name
  | rust => exact folded_snakeCase name

/-- A name that is the escape of a word is the word with an underscore: the other marks stand in no name. -/
theorem folded_of_escape (isName : IsName b.toList) (same : b = t.escape a) : folded b = folded a := by
  have kept : folded (a ++ "_") = folded a := by rw [folded_append, show folded "_" = "" by decide, String.append_empty]
  have char (c : Char) (mem : c ∈ b.toList) : isIdentifierChar c = true := isName.1.2 c mem
  cases t with
  | cpp | java | typescript => exact same ▸ kept
  | csharp => exact absurd (char '@' (by simp [same, escape])) (by decide)
  | rust => exact absurd (char '#' (by simp [same, escape])) (by decide)

/-- **Names that are written alike are the same up to case and underscores.** -/
theorem folded_eq_of_fitted (ha : IsName a.toList) (hb : IsName b.toList) (same : t.fitted a = t.fitted b) : folded a = folded b := by
  rw [← t.folded_fit a, ← t.folded_fit b]
  rcases t.fitted_eq_iff.mp same with same | ⟨-, -, same⟩ | ⟨-, -, same⟩
  · rw [same]
  · exact (t.folded_of_escape (t.isName_fit hb) same).symm
  · exact t.folded_of_escape (t.isName_fit ha) same

end Target

/-! ## Declarations -/

namespace Emit

open Operators

variable {α β : Type} {scene : Scene}

theorem bind_at {x y : Emit α} {f g : α → Emit β} (first : x scene = y scene) (next : ∀ a, f a scene = g a scene) :
    (x >>= f) scene = (y >>= g) scene := by
  change (x scene >>= fun a => f a scene) = (y scene >>= fun a => g a scene)
  rw [first, funext next]

theorem mapM_at {f g : α → Emit β} (l : List α) (same : ∀ a, f a scene = g a scene) : l.mapM f scene = l.mapM g scene := by
  induction l with
  | nil => rfl
  | cons a l ih =>
    rw [mapM_cons, mapM_cons]
    exact bind_at (same a) fun b => bind_at ih fun bs => rfl

/-- **What is local is declared under its name in the habit of the target**: variables, the parameters of lambdas and members,
and what a handler catches. -/
theorem declared_fitted (scene : Scene) :
    (∀ s type symbol, s.mark.declares = some symbol → symbol.kind = .local → symbol.rename = "" →
      Emits (declaredLocal s type) scene (scene.target.fitted symbol.name, type.or symbol.type)) ∧
    (∀ p, ∃ type, Emits (lambdaParameter p) scene (scene.target.fitted p.name, type)) ∧
    (∀ h : Handler Stmt, h.name ≠ "" → Emits (handlerName h) scene (scene.target.fitted h.name)) ∧
    ∀ parameters write, formalParameters parameters write scene = (do
      let texts ← parameters.mapM fun p => do write p (← usedTypeName (some p.type)) (scene.target.fitted p.name)
      pure (join ", " texts) : Emit String) scene := by
  refine ⟨fun s type symbol declares kind rename sheet => ?_, fun p => ?_, fun h named sheet => ?_, fun parameters write => ?_⟩
  · have name : scene.symbolName symbol = _ := symbolName_local (.inl kind) rename
    rw [← name, declaredLocal, declares]
    exact ⟨sheet, rfl⟩
  · rcases p with ⟨name, _ | type⟩
    · exact ⟨none, fun sheet => ⟨sheet, rfl⟩⟩
    · exact ⟨_, fun sheet => ⟨_, rfl⟩⟩
  · rw [handlerName, if_neg named]
    exact ⟨sheet, rfl⟩
  · exact bind_at (mapM_at parameters fun p => rfl) fun texts => rfl

end Emit

/-! ## What a name means in a target -/

namespace Locals

variable {l : Locals} {t : Target}

/-- Every local is kept under its own name. -/
def Named (l : Locals) : Prop := ∀ row ∈ l.frames.flatten, row.1 = row.2.name

/-- The names in reach, the innermost first. -/
def names (l : Locals) : List String := l.frames.flatten.map (·.1)

/-- The locals in reach in a target: each is declared under its name there. -/
def fitted (t : Target) (l : Locals) : Locals := { l with frames := l.frames.map (·.map fun row => (t.fitted row.1, row.2)) }

/-- **Nothing is captured**: the name under which a local is used in a target means that local there. -/
def CaptureFree (t : Target) (l : Locals) : Prop := ∀ a ∈ l.names, (l.fitted t).find? (t.fitted a) = l.find? a

theorem find?_eq_lookup (name : String) : l.find? name = l.frames.flatten.lookup name := by
  unfold find?
  induction l.frames with
  | nil => rfl
  | cons frame rest ih => rw [findSome?_cons, flatten_cons, lookup_append, ih]; cases frame.lookup name <;> rfl

theorem lookup_fitted {rows : List (String × Symbol)} {a : String} (apart : ∀ row ∈ rows, t.fitted row.1 = t.fitted a → row.1 = a) :
    (rows.map fun row => (t.fitted row.1, row.2)).lookup (t.fitted a) = rows.lookup a := by
  induction rows with
  | nil => rfl
  | cons row rows ih =>
    obtain ⟨first, rest⟩ := forall_mem_cons.mp apart
    rw [map_cons, lookup_cons_ite, lookup_cons_ite, ih rest]
    by_cases same : a = row.1
    · simp [same]
    · rw [if_neg same, if_neg fun alike => same (first alike.symm).symm]

theorem captureFree_iff (named : l.Named) : l.CaptureFree t ↔ ∀ a ∈ l.names, ∀ b ∈ l.names, t.fitted a = t.fitted b → a = b := by
  constructor
  · intro free a ha b hb alike
    have found {a : String} (mem : a ∈ l.names) : ∃ s, l.find? a = some s ∧ s.name = a := by
      obtain ⟨s, hs⟩ : ∃ s, l.find? a = some s := by
        rw [← Option.ne_none_iff_exists', Ne, find?_eq_lookup, lookup_eq_none_iff]
        intro absent
        obtain ⟨row, there, rfl⟩ := mem_map.mp mem
        simpa using absent row there
      exact ⟨s, hs, (named _ (mem_of_lookup (find?_eq_lookup a ▸ hs))).symm⟩
    obtain ⟨s, hs, rfl⟩ := found ha
    obtain ⟨s', hs', rfl⟩ := found hb
    have same := free _ ha
    rw [alike, free _ hb, hs, hs'] at same
    exact congrArg Symbol.name (Option.some.inj same).symm
  · intro apart a ha
    have rows : (l.fitted t).frames.flatten = l.frames.flatten.map fun row => (t.fitted row.1, row.2) := map_flatten.symm
    rw [find?_eq_lookup, find?_eq_lookup, rows]
    exact lookup_fitted fun row mem => apart _ (mem_map_of_mem mem) a ha

theorem Named.declare (named : l.Named) (s : Symbol) : (l.declare s).Named := by
  have rows : (l.declare s).frames.flatten = (s.name, s) :: l.frames.flatten := by
    unfold Locals.declare
    split <;> simp_all
  rw [Named, rows]
  exact forall_mem_cons.mpr ⟨rfl, named⟩

theorem Named.foldl_declare (named : l.Named) (symbols : List Symbol) : (symbols.foldl Locals.declare l).Named := by
  induction symbols generalizing l with
  | nil => exact named
  | cons s symbols ih => exact ih (named.declare s)

/-- **When the names of locals can be told apart in a target.** Resolving keeps every local under its own name, and a local is
used under its name in the habit of the target. Whatever stack of frames is in reach, such a use means the local that it means
in the document exactly if no two names in reach are written alike, that is, if no two are one name in the habit of the target
and none looks like the escape of another. So it does where the names are identifiers that differ in more than case and
underscores, and in C# for all identifiers. -/
theorem local_names_capture_free_iff (t : Target) (named : l.Named) :
    (l.CaptureFree t ↔ ∀ a ∈ l.names, ∀ b ∈ l.names, t.fitted a = t.fitted b → a = b) ∧
    (∀ a b, t.fitted a = t.fitted b ↔ t.fit a = t.fit b ∨
      t.fit a ∈ t.keywords ∧ t.fit b ∉ t.keywords ∧ t.fit b = t.escape (t.fit a) ∨
      t.fit b ∈ t.keywords ∧ t.fit a ∉ t.keywords ∧ t.fit a = t.escape (t.fit b)) ∧
    ((∀ a ∈ l.names, IsName a.toList) → (t = .csharp ∨ ∀ a ∈ l.names, ∀ b ∈ l.names, folded a = folded b → a = b) →
      l.CaptureFree t) ∧
    (∀ (scene : Scene) (s : Symbol), scene.target = t → s.kind = .local ∨ s.kind = .parameter → s.rename = "" →
      scene.symbolName s = t.fitted s.name) ∧
    ∀ levels d here l', (∃ expected e, (Resolver.within levels).expr d expected here l = .ok (e, l')) ∨
      (∃ s, (Resolver.within levels).stmt d here l = .ok (s, l')) → l'.Named := by
  refine ⟨captureFree_iff named, fun a b => t.fitted_eq_iff, fun isName apart => (captureFree_iff named).mpr ?_,
    fun scene s target kind rename => target ▸ Operators.symbolName_local kind rename, fun levels d here l' run => ?_⟩
  · intro a ha b hb alike
    rcases apart with rfl | apart
    · -- The escape of a reserved word has a character that no identifier has.
      have mark {a b : String} (hb : b ∈ l.names) : b ≠ Target.csharp.escape a := by
        rintro rfl
        exact absurd ((isName _ hb).1.2 '@' (by simp [Target.escape])) (by decide)
      rcases Target.csharp.fitted_eq_iff.mp alike with same | ⟨-, -, same⟩ | ⟨-, -, same⟩
      · exact same
      · exact absurd same (mark hb)
      · exact absurd same (mark ha)
    · exact apart a ha b hb (t.folded_eq_of_fitted (isName a ha) (isName b hb) alike)
  · obtain ⟨symbols, -, rfl⟩ := Resolve.exists_declared run
    exact named.foldl_declare symbols

/-- Locals in two frames. -/
def pair (inner outer : String) : Locals where
  frames := [[(inner, { kind := .local, name := inner })], [(outer, { kind := .parameter, name := outer })]]

theorem named_pair (inner outer : String) : (pair inner outer).Named := by simp [Named, pair]

theorem local_names_capture_free_total : (pair "total" "Count").Named ∧ (pair "total" "Count").CaptureFree .typescript :=
  ⟨named_pair _ _, (local_names_capture_free_iff .typescript (named_pair _ _)).2.2.1
    (by simp [names, pair]; decide) (.inr (by simp [names, pair]; decide +kernel))⟩

/-- The parameter `Count` is used under the name of the local `count`. -/
theorem local_names_captured_count : (pair "count" "Count").Named ∧ Target.typescript.fitted "Count" = "count" ∧
    ¬ (pair "count" "Count").CaptureFree .typescript :=
  ⟨named_pair _ _, by decide +kernel, fun free =>
    absurd ((captureFree_iff (named_pair _ _)).mp free "count" (by simp [names, pair]) "Count" (by simp [names, pair])
      (by decide +kernel)) (by decide)⟩

end Locals

end Polyglot
