import Polyglot.Proofs.CanonicalReport
import Polyglot.Proofs.Keys

/-!
# The imports of a unit

A unit notes the types that it refers to one after the other, and some of them many times. What it imports in the end depends
only on which types were noted, and how (`import_rows_exact`). To note a type is to note the declarations in it one by one
(`note_eq_foldl`), so it is enough to know what a single declaration does to the rows.
-/

namespace Polyglot

open List

/-! ## Declarations in a type -/

namespace Ty

/-- **A type reaches a declaration** through elements of arrays and type arguments; `inside` tells whether there is a type
argument on the way. -/
inductive Reaches : Ty → (inside : Bool) → TypeHead → Prop where
  | named (h : TypeHead) : Reaches (named h) false h
  | closed (h : TypeHead) (args : List Ty) (base : Option Ty) (interfaces : List Ty) :
    Reaches (closed h args base interfaces) false h
  | element {e : Ty} {inside : Bool} {h : TypeHead} : Reaches e inside h → Reaches (array e) inside h
  | argument {a : Ty} {inside : Bool} {h : TypeHead} (g : TypeHead) {args : List Ty} (base : Option Ty)
    (interfaces : List Ty) : a ∈ args → Reaches a inside h → Reaches (closed g args base interfaces) true h

mutual

/-- The declarations in a type in the order in which they are noted, each with whether it is needed in full. -/
def mentions (full : Bool) : Ty → List (TypeHead × Bool)
  | array e => mentions full e
  | named h => [(h, full)]
  | closed h args _ _ => mentionsAll args ++ [(h, full)]
  | _ => []

/-- The declarations in several types that are needed in full. -/
def mentionsAll : List Ty → List (TypeHead × Bool)
  | [] => []
  | t :: ts => mentions true t ++ mentionsAll ts

end

variable {h : TypeHead}

variable {g : TypeHead} {inside : Bool}

theorem reaches_closed_iff {args : List Ty} {base : Option Ty} {interfaces : List Ty} :
    Reaches (.closed g args base interfaces) inside h ↔
      (inside = false ∧ h = g) ∨ (inside = true ∧ ∃ a ∈ args, ∃ deep, Reaches a deep h) := by
  constructor
  · intro reaches
    cases reaches with
    | closed => exact .inl ⟨rfl, rfl⟩
    | argument _ _ _ mem reaches => exact .inr ⟨rfl, _, mem, _, reaches⟩
  · rintro (⟨rfl, rfl⟩ | ⟨rfl, a, mem, deep, reaches⟩)
    · exact .closed h args base interfaces
    · exact .argument g base interfaces mem reaches

theorem reaches_array_iff {e : Ty} : Reaches (.array e) inside h ↔ Reaches e inside h :=
  ⟨fun | .element reaches => reaches, .element⟩

theorem reaches_named_iff : Reaches (.named g) inside h ↔ inside = false ∧ h = g := by
  constructor
  · rintro ⟨⟩
    exact ⟨rfl, rfl⟩
  · rintro ⟨rfl, rfl⟩
    exact .named h

mutual

/-- **The declarations in a type are those that it reaches**, in full if through a type argument. -/
theorem mem_mentions {full b : Bool} : (t : Ty) →
    ((h, b) ∈ t.mentions full ↔ (Reaches t true h ∧ b = true) ∨ (Reaches t false h ∧ b = full))
  | .array e => by
    rw [mentions, reaches_array_iff, reaches_array_iff]
    exact mem_mentions e
  | .named g => by simp [mentions, reaches_named_iff]
  | .closed g args base interfaces => by
    rw [mentions, mem_append, mem_mentionsAll args, reaches_closed_iff, reaches_closed_iff]
    simp [and_comm]
  | .void | .null | .object | .dynamic | .string | .primitive _ | .param _ => by
    refine iff_of_false (by simp [mentions]) ?_
    rintro (⟨⟨⟩, -⟩ | ⟨⟨⟩, -⟩)

theorem mem_mentionsAll {b : Bool} : (ts : List Ty) →
    ((h, b) ∈ mentionsAll ts ↔ b = true ∧ ∃ t ∈ ts, ∃ inside, Reaches t inside h)
  | [] => by simp [mentionsAll]
  | t :: ts => by
    rw [mentionsAll, mem_append, mem_mentions t, mem_mentionsAll ts]
    simp only [mem_cons, exists_eq_or_imp, Bool.exists_bool]
    grind

end

end Ty

/-! ## Rows -/

namespace Imports

variable {i j : Imports} {key : String}

/-- Whether a definition is needed in full, when it is noted. -/
def flag? (i : Imports) (key : String) : Option Bool := (i.rows.lookup key).map (·.full)

/-- **Each definition has one row**, under its own key. -/
structure Tidy (i : Imports) : Prop where
  distinct : (i.rows.map Prod.fst).Nodup
  keyed : ∀ row ∈ i.rows, row.2.head.key = row.1

theorem tidy_empty (self : Option Ty) : (empty self).Tidy := ⟨nodup_nil, nofun⟩

theorem flag?_empty (self : Option Ty) (key : String) : (empty self).flag? key = none := rfl

theorem self_noteHead (i : Imports) (h : TypeHead) (full : Bool) : (i.noteHead h full).self = i.self := by
  unfold noteHead
  dsimp only
  split
  · rfl
  · split <;> rfl

/-- **What noting a declaration does**: its own row is there then, and is in full if it was or is noted so. -/
theorem flag?_noteHead (i : Imports) (h : TypeHead) (full : Bool) (key : String) :
    (i.noteHead h full).flag? key =
      if key = h.key ∧ key ≠ i.self then some ((i.flag? key).getD false || full) else i.flag? key := by
  unfold noteHead
  dsimp only
  split
  · next own => rw [if_neg fun both => both.2 (both.1.trans own)]
  · next other =>
    by_cases same : key = h.key
    · subst same
      rw [if_pos ⟨rfl, other⟩]
      split
      · next e found => simp [flag?, lookup_assocSet, found]
      · next missing => simp [flag?, lookup_assocSet, missing]
    · rw [if_neg fun both => same both.1]
      split <;> rw [flag?, lookup_assocSet, if_neg same, flag?]

theorem isSome_flag?_noteHead (i : Imports) (h : TypeHead) (full : Bool) (key : String) :
    ((i.noteHead h full).flag? key).isSome ↔ (i.flag? key).isSome ∨ (key ≠ i.self ∧ h.key = key) := by
  rw [flag?_noteHead]
  split
  · next here => simp [here.1 ▸ here.2, here.1]
  · next other => simpa using fun apart same => absurd ⟨same.symm, apart⟩ other

theorem flag?_noteHead_eq_true (i : Imports) (h : TypeHead) (full : Bool) (key : String) :
    (i.noteHead h full).flag? key = some true ↔
      i.flag? key = some true ∨ (key ≠ i.self ∧ h.key = key ∧ full = true) := by
  rw [flag?_noteHead]
  split
  · next here => cases i.flag? key <;> simp [here.1 ▸ here.2, here.1]
  · next other => simpa using fun apart same => absurd ⟨same.symm, apart⟩ other

variable {β : Type}

theorem map_fst_assocSet (k : String) (v : β) (rows : List (String × β)) :
    (assocSet k v rows).map Prod.fst = if k ∈ rows.map Prod.fst then rows.map Prod.fst else rows.map Prod.fst ++ [k] := by
  induction rows with
  | nil => rfl
  | cons row rows ih =>
    rw [assocSet]
    by_cases here : row.1 = k
    · simp [here]
    · rw [if_neg (by simpa using here), map_cons, ih]
      have other : k ≠ row.1 := fun same => here same.symm
      by_cases later : k ∈ rows.map Prod.fst
      · simp [later]
      · simp [later, other]

theorem mem_assocSet {k : String} {v : β} {rows : List (String × β)} {row : String × β} (mem : row ∈ assocSet k v rows) :
    row = (k, v) ∨ row ∈ rows := by
  induction rows with
  | nil => exact .inl (mem_singleton.mp mem)
  | cons first rows ih =>
    rw [assocSet] at mem
    split at mem
    · next here =>
      rcases mem_cons.mp mem with rfl | mem
      · exact .inl (by rw [eq_of_beq here])
      · exact .inr (mem_cons_of_mem _ mem)
    · rcases mem_cons.mp mem with rfl | mem
      · exact .inr mem_cons_self
      · exact (ih mem).imp_right (mem_cons_of_mem _)

theorem tidy_assocSet {e : Import} (tidy : i.Tidy) (own : e.head.key = key) :
    Tidy { i with rows := assocSet key e i.rows } where
  distinct := by
    rw [map_fst_assocSet]
    split
    · exact tidy.distinct
    · next fresh => exact concat_eq_append ▸ tidy.distinct.concat fresh
  keyed row mem := by
    rcases mem_assocSet mem with rfl | mem
    · exact own
    · exact tidy.keyed row mem

theorem Tidy.noteHead (tidy : i.Tidy) (h : TypeHead) (full : Bool) : (i.noteHead h full).Tidy := by
  unfold Imports.noteHead
  dsimp only
  split
  · exact tidy
  · split
    · next e found => exact tidy_assocSet tidy (tidy.keyed (h.key, e) (mem_of_lookup found))
    · exact tidy_assocSet tidy rfl

/-! ## Many declarations -/

/-- Several declarations noted one after the other. -/
def noteHeads (i : Imports) (ms : List (TypeHead × Bool)) : Imports := ms.foldl (fun i m => i.noteHead m.1 m.2) i

theorem noteHeads_cons (i : Imports) (m : TypeHead × Bool) (ms : List (TypeHead × Bool)) :
    i.noteHeads (m :: ms) = (i.noteHead m.1 m.2).noteHeads ms := rfl

theorem noteHeads_append (i : Imports) (ms ms' : List (TypeHead × Bool)) :
    i.noteHeads (ms ++ ms') = (i.noteHeads ms).noteHeads ms' := foldl_append

theorem noteHeads_keeps {R : Imports → Prop} (step : ∀ i h full, R i → R (noteHead i h full)) (holds : R i)
    (ms : List (TypeHead × Bool)) : R (i.noteHeads ms) := by
  induction ms generalizing i with
  | nil => exact holds
  | cons m ms ih => exact ih (step i m.1 m.2 holds)

/-- A definition has a row exactly when it had one or is noted. -/
theorem isSome_flag?_noteHeads (i : Imports) (ms : List (TypeHead × Bool)) (key : String) :
    ((i.noteHeads ms).flag? key).isSome ↔ (i.flag? key).isSome ∨ (key ≠ i.self ∧ ∃ m ∈ ms, m.1.key = key) := by
  induction ms generalizing i with
  | nil => simp [noteHeads]
  | cons m ms ih =>
    rw [noteHeads_cons, ih, self_noteHead, isSome_flag?_noteHead]
    simp only [mem_cons, exists_eq_or_imp, and_or_left, or_assoc]

/-- It is needed in full exactly when it was, or is noted so. -/
theorem flag?_noteHeads_eq_true (i : Imports) (ms : List (TypeHead × Bool)) (key : String) :
    (i.noteHeads ms).flag? key = some true ↔
      i.flag? key = some true ∨ (key ≠ i.self ∧ ∃ m ∈ ms, m.1.key = key ∧ m.2 = true) := by
  induction ms generalizing i with
  | nil => simp [noteHeads]
  | cons m ms ih =>
    rw [noteHeads_cons, ih, self_noteHead, flag?_noteHead_eq_true]
    simp only [mem_cons, exists_eq_or_imp, and_or_left, or_assoc]

mutual

/-- **To note a type is to note its declarations**, one after the other. -/
theorem note_eq (i : Imports) (full : Bool) : (t : Ty) → i.note full t = i.noteHeads (t.mentions full)
  | .array e => by rw [note, Ty.mentions, note_eq i full e]
  | .named h => by rw [note, Ty.mentions]; rfl
  | .closed h args base interfaces => by
    rw [note, Ty.mentions, noteHeads_append, noteAll_eq i args]
    rfl
  | .void | .null | .object | .dynamic | .string | .primitive _ | .param _ => by simp [note, Ty.mentions, noteHeads]

theorem noteAll_eq (i : Imports) : (ts : List Ty) → i.noteAll ts = i.noteHeads (Ty.mentionsAll ts)
  | [] => by rw [noteAll, Ty.mentionsAll]; rfl
  | t :: ts => by rw [noteAll, Ty.mentionsAll, noteHeads_append, ← note_eq i true t, noteAll_eq _ ts]

end

/-! ## Entries -/

/-- The keys that are imported, and whether in full. -/
def flags (i : Imports) : List (String × Bool) := i.entries.map fun e => (e.head.key, e.full)

theorem flags_eq (tidy : i.Tidy) :
    i.flags = (i.rows.mergeSort fun a b => !Text.before b.1 a.1).map fun row => (row.1, row.2.full) := by
  rw [flags, entries, map_map]
  refine map_congr_left fun row mem => ?_
  rw [Function.comp_apply, tidy.keyed row (mem_mergeSort.mp mem)]

/-- **The entries are in strict order of their keys.** -/
theorem flags_sorted (tidy : i.Tidy) : i.flags.Pairwise fun a b => a.1 < b.1 := by
  rw [flags_eq tidy, pairwise_map]
  exact mergeSort_pairwise_lt tidy.distinct

theorem mem_flags (tidy : i.Tidy) {full : Bool} : (key, full) ∈ i.flags ↔ i.flag? key = some full := by
  rw [flags_eq tidy, flag?, Option.map_eq_some_iff]
  simp only [mem_map, mem_mergeSort, Prod.mk.injEq]
  constructor
  · rintro ⟨⟨k, e⟩, mem, rfl, rfl⟩
    exact ⟨e, lookup_of_mem tidy.distinct mem, rfl⟩
  · rintro ⟨e, found, rfl⟩
    exact ⟨(key, e), mem_of_lookup found, rfl, rfl⟩

/-- **Rows that agree on every key give the same entries.** -/
theorem flags_eq_of_flag?_eq (tidy : i.Tidy) (tidy' : j.Tidy) (agree : ∀ key, i.flag? key = j.flag? key) :
    i.flags = j.flags := by
  have sorted := flags_sorted tidy
  have sorted' := flags_sorted tidy'
  have irrefl {a b : String × Bool} (lt : a.1 < b.1) : a ≠ b := fun same => String.lt_irrefl b.1 (same ▸ lt)
  have perm : i.flags.Perm j.flags := by
    rw [perm_ext_iff_of_nodup (sorted.imp irrefl) (sorted'.imp irrefl)]
    rintro ⟨key, full⟩
    rw [mem_flags tidy, mem_flags tidy', agree]
  exact perm.eq_of_pairwise (fun a b _ _ lt gt => absurd gt (String.lt_asymm lt)) sorted sorted'

end Imports

/-! ## What a unit refers to -/

/-- A type that a unit refers to, if it is known, and whether it is needed in full. -/
structure Reference where
  type : Option Ty
  full : Bool

namespace Reference

def mentions (r : Reference) : List (TypeHead × Bool) := (r.type.map (·.mentions r.full)).getD []

/-- The noted type mentions the definition, perhaps inside an argument. -/
def Reaches (r : Reference) (inside : Bool) (h : TypeHead) : Prop := ∃ t ∈ r.type, t.Reaches inside h

theorem mem_mentions {r : Reference} {h : TypeHead} {b : Bool} :
    (h, b) ∈ r.mentions ↔ (r.Reaches true h ∧ b = true) ∨ (r.Reaches false h ∧ b = r.full) := by
  rcases r with ⟨_ | t, full⟩
  · simp [mentions, Reaches]
  · simpa [mentions, Reaches] using Ty.mem_mentions t

end Reference

namespace Imports

/-- **The types that a unit refers to, noted one after the other.** One that is not known is not noted. -/
def ofReferences (self : Option Ty) (refs : List Reference) : Imports :=
  refs.foldl (fun i r => r.type.elim i (i.note r.full)) (empty self)

variable (self : Option Ty) (refs : List Reference) (key : String)

theorem ofReferences_eq : ofReferences self refs = (empty self).noteHeads (refs.flatMap (·.mentions)) := by
  unfold ofReferences
  generalize empty self = i
  induction refs generalizing i with
  | nil => rfl
  | cons r refs ih =>
    rw [foldl_cons, ih, flatMap_cons, noteHeads_append]
    rcases r with ⟨_ | t, full⟩
    · rfl
    · exact congrArg (noteHeads · _) (note_eq i full t)

theorem tidy_ofReferences : (ofReferences self refs).Tidy :=
  ofReferences_eq self refs ▸ noteHeads_keeps (fun _ h full tidy => tidy.noteHead h full) (tidy_empty self) _

/-- The key of the unit's own type; empty: none. -/
def ownKey (self : Option Ty) : String := (self.map (·.definitionKey)).getD ""

/-- A definition is imported exactly when a reference reaches it and it is not the unit's own. -/
theorem isSome_flag?_ofReferences :
    ((ofReferences self refs).flag? key).isSome ↔
      key ≠ ownKey self ∧ ∃ r ∈ refs, ∃ inside h, r.Reaches inside h ∧ h.key = key := by
  rw [ofReferences_eq, isSome_flag?_noteHeads, flag?_empty]
  simp only [Option.isSome_none, Bool.false_eq_true, false_or]
  refine and_congr_right fun _ => ?_
  constructor
  · rintro ⟨⟨h, b⟩, mem, same⟩
    obtain ⟨r, hr, mem⟩ := mem_flatMap.mp mem
    rcases Reference.mem_mentions.mp mem with ⟨reaches, -⟩ | ⟨reaches, -⟩
    · exact ⟨r, hr, true, h, reaches, same⟩
    · exact ⟨r, hr, false, h, reaches, same⟩
  · rintro ⟨r, hr, inside, h, reaches, same⟩
    cases inside with
    | false => exact ⟨(h, r.full), mem_flatMap.mpr ⟨r, hr, Reference.mem_mentions.mpr (.inr ⟨reaches, rfl⟩)⟩, same⟩
    | true => exact ⟨(h, true), mem_flatMap.mpr ⟨r, hr, Reference.mem_mentions.mpr (.inl ⟨reaches, rfl⟩)⟩, same⟩

/-- It is imported in full exactly when it is reached through a type argument, or by a reference that needs it so. -/
theorem flag?_ofReferences_eq_true :
    (ofReferences self refs).flag? key = some true ↔
      key ≠ ownKey self ∧ ∃ r ∈ refs, ∃ h, (r.Reaches true h ∨ (r.full = true ∧ r.Reaches false h)) ∧ h.key = key := by
  rw [ofReferences_eq, flag?_noteHeads_eq_true, flag?_empty]
  simp only [reduceCtorEq, false_or]
  refine and_congr_right fun _ => ?_
  constructor
  · rintro ⟨⟨h, b⟩, mem, same, rfl⟩
    obtain ⟨r, hr, mem⟩ := mem_flatMap.mp mem
    rcases Reference.mem_mentions.mp mem with ⟨reaches, -⟩ | ⟨reaches, full⟩
    · exact ⟨r, hr, h, .inl reaches, same⟩
    · exact ⟨r, hr, h, .inr ⟨full.symm, reaches⟩, same⟩
  · rintro ⟨r, hr, h, reaches, same⟩
    refine ⟨(h, true), mem_flatMap.mpr ⟨r, hr, Reference.mem_mentions.mpr ?_⟩, same, rfl⟩
    exact reaches.imp (fun inside => ⟨inside, rfl⟩) fun ⟨full, outside⟩ => ⟨outside, full.symm⟩

/-- What is imported depends on the references, and not on their order or on how often they are made. -/
theorem flag?_ofReferences_congr {self : Option Ty} {refs refs' : List Reference} (same : ∀ r, r ∈ refs' ↔ r ∈ refs)
    (key : String) : (ofReferences self refs').flag? key = (ofReferences self refs).flag? key := by
  have there : ((ofReferences self refs').flag? key).isSome ↔ ((ofReferences self refs).flag? key).isSome := by
    simp only [isSome_flag?_ofReferences, same]
  have full : (ofReferences self refs').flag? key = some true ↔ (ofReferences self refs).flag? key = some true := by
    simp only [flag?_ofReferences_eq_true, same]
  revert there full
  rcases (ofReferences self refs').flag? key with _ | _ | _ <;> rcases (ofReferences self refs).flag? key with _ | _ | _ <;>
    simp

/-- **The imports of a unit are exact.** They depend on which references are made, and not on their order or number. They are
in strict order of their keys. A definition is among them exactly when a reference reaches it and it is not the unit's own,
and it is needed in full exactly when it is reached through a type argument, or through elements of arrays alone by a
reference that needs it in full. Further references take nothing away. -/
theorem import_rows_exact (self : Option Ty) (refs : List Reference) :
    (∀ refs', (∀ r, r ∈ refs' ↔ r ∈ refs) → (ofReferences self refs').flags = (ofReferences self refs).flags) ∧
      ((ofReferences self refs).flags.Pairwise fun a b => a.1 < b.1) ∧
      (∀ key, (∃ full, (key, full) ∈ (ofReferences self refs).flags) ↔
        key ≠ ownKey self ∧ ∃ r ∈ refs, ∃ inside h, r.Reaches inside h ∧ h.key = key) ∧
      (∀ key full, (key, full) ∈ (ofReferences self refs).flags →
        (full = true ↔ ∃ r ∈ refs, ∃ h, (r.Reaches true h ∨ (r.full = true ∧ r.Reaches false h)) ∧ h.key = key)) ∧
      ∀ more key full, (key, full) ∈ (ofReferences self refs).flags →
        ∃ full', (key, full') ∈ (ofReferences self (refs ++ more)).flags ∧ (full = true → full' = true) := by
  have tidy := tidy_ofReferences self
  refine ⟨fun refs' same => ?_, flags_sorted (tidy refs), fun key => ?_, fun key full mem => ?_, fun more key full mem => ?_⟩
  · exact flags_eq_of_flag?_eq (tidy refs') (tidy refs) (flag?_ofReferences_congr same)
  · rw [← isSome_flag?_ofReferences, Option.isSome_iff_exists]
    exact exists_congr fun full => mem_flags (tidy refs)
  · rw [mem_flags (tidy refs)] at mem
    have other := ((isSome_flag?_ofReferences self refs key).mp (mem ▸ rfl)).1
    have exact := flag?_ofReferences_eq_true self refs key
    simpa [mem, other] using exact
  · rw [mem_flags (tidy refs)] at mem
    obtain ⟨other, r, hr, reached⟩ := (isSome_flag?_ofReferences self refs key).mp (mem ▸ rfl)
    have kept := (isSome_flag?_ofReferences self (refs ++ more) key).mpr ⟨other, r, mem_append_left _ hr, reached⟩
    obtain ⟨full', found⟩ := Option.isSome_iff_exists.mp kept
    refine ⟨full', (mem_flags (tidy _)).mpr found, fun isFull => ?_⟩
    obtain ⟨-, r, hr, reached⟩ := (flag?_ofReferences_eq_true self refs key).mp (isFull ▸ mem)
    have still := (flag?_ofReferences_eq_true self (refs ++ more) key).mpr
      ⟨other, r, mem_append_left _ hr, reached⟩
    exact Option.some.inj (found.symm.trans still)

/-- The references of a class of points: a list of shapes, an array of circles, its own type and a type that is not known. -/
def pointReferences : List Reference :=
  let shape := Ty.named ⟨.classDecl, "Geometry", "Shape", [], ""⟩
  let circle := Ty.named ⟨.classDecl, "Geometry", "Circle", [], ""⟩
  let point := Ty.named ⟨.structDecl, "Geometry", "Point", [], ""⟩
  let list := Ty.closed ⟨.classDecl, "System.Collections.Generic", "List", ["T"], ""⟩ [shape] none []
  [⟨some list, false⟩, ⟨some (.array circle), false⟩, ⟨some point, true⟩, ⟨none, true⟩]

/-- They may be made in another order, and twice. -/
theorem import_rows_exact_points :
    let point := Ty.named ⟨.structDecl, "Geometry", "Point", [], ""⟩
    let flags := (ofReferences (some point) pointReferences).flags
    ("Geometry.Circle", false) ∈ flags ∧ ("Geometry.Shape", true) ∈ flags ∧
      ("System.Collections.Generic.List`1", false) ∈ flags ∧ (∀ full, ("Geometry.Point", full) ∉ flags) ∧
      (ofReferences (some point) (pointReferences ++ pointReferences.reverse)).flags = flags := by
  intro point flags
  have exact := import_rows_exact (some point) pointReferences
  have row (key : String) (full : Bool) : (key, full) ∈ flags ↔ (ofReferences (some point) pointReferences).flag? key = some full :=
    mem_flags (tidy_ofReferences _ _)
  refine ⟨(row _ _).mpr (by decide +kernel), (row _ _).mpr (by decide +kernel), (row _ _).mpr (by decide +kernel),
    fun full mem => ?_, exact.1 _ fun r => ?_⟩
  · exact ((exact.2.2.1 _).mp ⟨full, mem⟩).1 (by decide +kernel)
  · rw [mem_append, mem_reverse, or_self]

end Imports

end Polyglot
