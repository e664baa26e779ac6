import Polyglot.Compilation
import Polyglot.Proofs.PathParts

/-!
# Entering types

The first pass over the declarations of a document enters their types into the index. It changes nothing else; a
declaration that adds to a type that is known enters none, and the types of the document itself are all new: no
two of them have one key, and none has the key of a type that was known before.
-/

namespace Polyglot

open List

namespace TypeDraft

/-- A declared name that is read back from its key: there is no backtick in it, and no dot before it. -/
def WellNamed (d : TypeDraft) : Prop := arityMark ∉ d.name.toList ∧ d.name.toList.head? ≠ some '.'

instance (d : TypeDraft) : Decidable d.WellNamed := inferInstanceAs (Decidable (_ ∧ _))

/-- The definition that a draft declares. -/
def head (d : TypeDraft) : TypeHead where
  kind := (DeclKind.ofText? d.kind).getD default
  space := (splitQualified d.name).1
  name := (splitQualified d.name).2
  params := d.typeParameters
  rename := d.rename

variable {d : TypeDraft}

theorem WellNamed.qualified (h : d.WellNamed) : d.head.qualified = d.name := qualify_splitQualified h.2

theorem WellNamed.key (h : d.WellNamed) : d.head.key = arityKey d.name d.typeParameters.length := by
  rw [TypeHead.key, h.qualified]
  rfl

theorem WellNamed.plain (h : d.WellNamed) : arityMark ∉ d.head.qualified.toList := h.qualified ▸ h.1

theorem wellNamed_of_isWords (h : IsWords d.name) : d.WellNamed := by
  refine ⟨fun mem => ?_, head_of_isWords h⟩
  rcases isIdentifierChar_of_isWords h mem with dot | char
  · cases dot
  · exact absurd char (by decide)

end TypeDraft

namespace Compilation

variable {w w' : World} {isExternal : Bool}

variable {d : TypeDraft} {e : Entry}

/-- **What entering a type does**: a known type stays, a new one is added to the index. -/
theorem declareType_eq_ok (run : declareType w isExternal d = .ok (w', e)) :
    (∃ t, w.index.find? d.name d.typeParameters.length = some t ∧ isExternal = true ∧ w' = w ∧ e = ⟨d, t, true⟩) ∨
      (w.index.find? d.name d.typeParameters.length = none ∧ w' = { w with index := w.index.add d.head } ∧
        e = ⟨d, .named d.head, isExternal⟩) := by
  unfold declareType at run
  split at run
  · cases run
  · next kind hkind =>
    split at run
    · cases run
    · split at run
      · next t found =>
        split at run
        · next external =>
          cases run
          exact .inl ⟨t, found, external, rfl, rfl⟩
        · cases run
      · next fresh =>
        cases run
        have head : d.head =
            ⟨kind, (splitQualified d.name).1, (splitQualified d.name).2, d.typeParameters, d.rename⟩ := by
          rw [TypeDraft.head, hkind, Option.getD_some]
        exact .inr ⟨fresh, by rw [head]; rfl, by rw [head]; rfl⟩

theorem declareType_cases (named : d.WellNamed) (run : declareType w isExternal d = .ok (w', e)) :
    (∃ t, w.index.byKey.lookup d.head.key = some t ∧ isExternal = true ∧ w' = w ∧ e = ⟨d, t, true⟩) ∨
      (w.index.byKey.lookup d.head.key = none ∧ w' = { w with index := w.index.add d.head } ∧
        e = ⟨d, .named d.head, isExternal⟩) := by
  rw [named.key]
  exact declareType_eq_ok run

variable {types : List (Option TypeDraft)} {es : List Entry}

theorem declareTypes_threaded (run : declareTypes isExternal types w = .ok (w', es)) :
    ∃ drafts : List TypeDraft, types = drafts.map some ∧
      Threaded (fun w d e w' => declareType w isExternal d = .ok (w', e)) w drafts es w' := by
  induction types generalizing w es with
  | nil =>
    cases run
    exact ⟨[], rfl, .nil _⟩
  | cons first types ih =>
    cases first with
    | none => cases run
    | some d =>
      obtain ⟨⟨w₁, e⟩, here, run⟩ := bind_eq_ok.mp run
      obtain ⟨⟨w₂, es'⟩, rest, run⟩ := bind_eq_ok.mp run
      cases run
      obtain ⟨drafts, rfl, steps⟩ := ih rest
      exact ⟨d :: drafts, rfl, .cons here steps⟩

section

variable (named : ∀ d, some d ∈ types → d.WellNamed)
include named

/-- Types that may be known: the entries are about definitions of the index. -/
theorem declareTypes_known (sound : w.index.Sound) (run : declareTypes isExternal types w = .ok (w', es)) :
    w'.index.Sound ∧ w' = { w with index := w'.index } ∧ (∀ h, w.index.Knows h → w'.index.Knows h) ∧
      ∀ e ∈ es, ∀ h, e.type = .named h → w'.index.Knows h := by
  obtain ⟨drafts, rfl, steps⟩ := declareTypes_threaded run
  clear run
  induction steps with
  | nil w => exact ⟨sound, rfl, fun _ known => known, by simp⟩
  | @cons w _ _ d e drafts _ here _ ih =>
    have wellNamed := named d mem_cons_self
    have namedRest : ∀ d, some d ∈ drafts.map some → d.WellNamed := fun d hd => named d (mem_cons_of_mem _ hd)
    rcases declareType_cases wellNamed here with ⟨t, found, -, rfl, rfl⟩ | ⟨fresh, rfl, rfl⟩
    · obtain ⟨sound', shape, keeps, entries⟩ := ih sound namedRest
      refine ⟨sound', shape, keeps, forall_mem_cons.mpr ⟨?_, entries⟩⟩
      rintro h rfl
      exact keeps h (sound.knows found)
    · obtain ⟨sound', shape, keeps, entries⟩ := ih (sound.add fresh wellNamed.plain) namedRest
      refine ⟨sound', ?_, fun h known => keeps h (known.add fresh), forall_mem_cons.mpr ⟨?_, entries⟩⟩
      · rw [shape]
      · rintro h hd
        cases hd
        exact keeps _ (TypeIndex.knows_add _ _)

/-- What holds of the types that are known and of those that are entered holds of all types of the index. -/
theorem declareTypes_rows {P : Ty → Prop} (entered : ∀ d, some d ∈ types → P (.named d.head))
    (known : ∀ k t, w.index.byKey.lookup k = some t → P t) (run : declareTypes isExternal types w = .ok (w', es)) :
    ∀ k t, w'.index.byKey.lookup k = some t → P t := by
  obtain ⟨drafts, rfl, steps⟩ := declareTypes_threaded run
  clear run
  induction steps with
  | nil w => exact known
  | @cons w _ _ d e drafts _ here _ ih =>
    refine ih ?_ (fun d hd => named d (mem_cons_of_mem _ hd)) fun d hd => entered d (mem_cons_of_mem _ hd)
    rcases declareType_cases (named d mem_cons_self) here with ⟨t, -, -, rfl, -⟩ | ⟨-, rfl, -⟩
    · exact known
    · intro k t found
      rw [TypeIndex.lookup_add] at found
      split at found
      · cases found
        exact entered d mem_cons_self
      · exact known k t found

/-- The entry of a declaration of the document itself. -/
def ownEntry (d : TypeDraft) : Entry := ⟨d, .named d.head, false⟩

/-- **The types of the document itself are all new.** -/
theorem declareTypes_own (run : declareTypes false types w = .ok (w', es)) :
    ∃ drafts : List TypeDraft, types = drafts.map some ∧ es = drafts.map ownEntry ∧
      (drafts.map (·.head.key)).Nodup ∧ (∀ d ∈ drafts, w.index.byKey.lookup d.head.key = none) ∧ ∀ k, w'.index.byKey.lookup k =
        ((drafts.find? (·.head.key = k)).map fun d => Ty.named d.head).or (w.index.byKey.lookup k) := by
  obtain ⟨drafts, rfl, steps⟩ := declareTypes_threaded run
  refine ⟨drafts, rfl, ?_⟩
  clear run
  induction steps with
  | nil w => exact ⟨rfl, by simp, by simp, by simp⟩
  | @cons w _ _ d e drafts _ here _ ih =>
    rcases declareType_cases (named d mem_cons_self) here with ⟨t, found, external, rfl, rfl⟩ | ⟨fresh, rfl, rfl⟩
    · cases external
    · obtain ⟨rfl, nodup, new, lookup⟩ := ih (fun d hd => named d (mem_cons_of_mem _ hd))
      have other : ∀ d' ∈ drafts, d'.head.key ≠ d.head.key ∧ w.index.byKey.lookup d'.head.key = none := by
        intro d' hd'
        have absent := new d' hd'
        rw [TypeIndex.lookup_add] at absent
        split at absent
        · cases absent
        · next ne => exact ⟨ne, absent⟩
      refine ⟨rfl, ?_, ?_, ?_⟩
      · rw [map_cons, nodup_cons]
        refine ⟨?_, nodup⟩
        intro mem
        obtain ⟨d', hd', same⟩ := mem_map.mp mem
        exact (other d' hd').1 same
      · exact forall_mem_cons.mpr ⟨fresh, fun d' hd' => (other d' hd').2⟩
      · intro k
        rw [lookup k, TypeIndex.lookup_add]
        by_cases first : d.head.key = k
        · subst first
          have absent : drafts.find? (·.head.key = d.head.key) = none := by
            rw [find?_eq_none]
            exact fun d' hd' => by simpa using (other d' hd').1
          simp [absent]
        · simp [first, Ne.symm first]

/-- The numbers of type parameters that the types of the document are declared with are known. -/
theorem declareTypes_arities (run : declareTypes false types w = .ok (w', es)) :
    (∀ q n, n ∈ w.index.aritiesOf q → n ∈ w'.index.aritiesOf q) ∧
      ∀ d, some d ∈ types → d.head.arity ∈ w'.index.aritiesOf d.head.qualified := by
  obtain ⟨drafts, rfl, steps⟩ := declareTypes_threaded run
  clear run
  induction steps with
  | nil w => exact ⟨fun _ _ mem => mem, by simp⟩
  | @cons w _ _ d e drafts _ here _ ih =>
    rcases declareType_cases (named d mem_cons_self) here with ⟨t, found, external, rfl, rfl⟩ | ⟨fresh, rfl, rfl⟩
    · cases external
    · obtain ⟨keeps, own⟩ := ih (fun d hd => named d (mem_cons_of_mem _ hd))
      refine ⟨fun q n mem => keeps q n (TypeIndex.mem_aritiesOf_add d.head mem), fun d' hd' => ?_⟩
      rcases mem_cons.mp hd' with same | hd'
      · cases same
        exact keeps _ _ (TypeIndex.arity_mem_aritiesOf_add _ _)
      · exact own d' hd'

end

end Compilation

end Polyglot
