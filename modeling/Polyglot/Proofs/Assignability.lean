import Polyglot.Proofs.Ancestry

/-!
# Assignability is a preorder

Assignability mixes five rules: the same key, null for a reference, anything for an untyped place, arrays of assignable
references, and a supertype by its key. In a universe of types where inheritance has no cycles, and where a key tells the kind
and the supertypes, each pair of rules composes.
-/

namespace Polyglot

open List Relation

/-! ## What the kind of a type tells -/

namespace Ty

variable {t u : Ty}

/-- The kind of a type tells whether it is a reference, untyped, an array or null. -/
theorem flags_eq (t : Ty) :
    t.isReferenceType = ["array", "object", "string", "dynamic", "class", "interface", "delegate"].contains t.kindText ∧
      t.isUntyped = ["object", "dynamic"].contains t.kindText ∧ t.isArray = (t.kindText == "array") ∧
      t.isNull = (t.kindText == "null") := by
  cases t with
  | named h | closed h => cases kind : h.kind <;>
      simp [isReferenceType, isUntyped, isArray, isNull, isDecl, declKind?, head?, kindText, DeclKind.text, kind]
  | _ => exact ⟨rfl, rfl, rfl, rfl⟩

theorem isReferenceType_of_isUntyped (untyped : t.isUntyped = true) : t.isReferenceType = true := by
  cases t with
  | object | dynamic => rfl
  | _ => cases untyped

theorem isArray_of_isUntyped (untyped : t.isUntyped = true) : t.isArray = false := by
  cases t with
  | array e => cases untyped
  | _ => rfl

theorem exists_array (array : t.isArray = true) : ∃ e, t = .array e := by
  cases t with
  | array e => exact ⟨e, rfl⟩
  | _ => cases array

theorem key_array_inj {e f : Ty} (key : (array e).key = (array f).key) : e.key = f.key := by
  simpa [Ty.key] using key

end Ty

namespace Hierarchy

variable {H : Hierarchy}

/-! ## The rules -/

/-- The rules for a value that is not null, unless both types are arrays. -/
theorem assignable_iff {t u : Ty} (value : t.isNull = false) (flat : t.isArray = false ∨ u.isArray = false) :
    H.assignable t u = true ↔
      t.key = u.key ∨ u.isUntyped = true ∨ t.isReferenceType = true ∧ ∃ s ∈ H.supertypes t, s.key = u.key := by
  have rules : H.assignable t u =
      (t.same u || u.isUntyped || (t.isReferenceType && (H.supertypes t).any (·.same u))) := by
    cases t with
    | null => cases value
    | array e =>
      cases u with
      | array f => rcases flat with flat | flat <;> cases flat
      | _ => simp [assignable]
    | _ => simp [assignable]
  simp [rules, Ty.same, or_assoc]

theorem assignable_array_iff {e f : Ty} :
    H.assignable (.array e) (.array f) = true ↔
      e.key = f.key ∨ e.isReferenceType = true ∧ H.assignable e f = true := by
  have key : (Ty.array e).key = (Ty.array f).key ↔ e.key = f.key := ⟨Ty.key_array_inj, fun h => by simp [Ty.key, h]⟩
  rw [assignable, Bool.or_eq_true, Bool.and_eq_true, Ty.same, beq_iff_eq, key]

theorem assignable_null_iff {u : Ty} :
    H.assignable .null u = true ↔ Ty.null.key = u.key ∨ u.isReferenceType = true := by
  simp [assignable, Ty.same]

/-- A type stands for every type with its key. -/
theorem assignable_of_key {t u : Ty} (key : t.key = u.key) : H.assignable t u = true := by
  cases t with
  | null => exact assignable_null_iff.mpr (.inl key)
  | array e =>
    cases u with
    | array f => exact assignable_array_iff.mpr (.inl (Ty.key_array_inj key))
    | _ => exact (assignable_iff rfl (.inr rfl)).mpr (.inl key)
  | _ => exact (assignable_iff rfl (.inl rfl)).mpr (.inl key)

/-! ## Universes -/

/-- **A universe of types**: with a type it has the direct supertypes and, of an array, the element; inheritance has no
cycles; classes and delegates have no base but a class or the root, interfaces have none, and what is listed as an
interface is one; and a key tells the kind and the keys of the direct supertypes. -/
structure Universe (H : Hierarchy) (U : Set Ty) : Prop where
  direct : ∀ t ∈ U, ∀ s, H.Super t s → s ∈ U
  elem : ∀ e, .array e ∈ U → e ∈ U
  acyclic : ∀ t ∈ U, ¬ TransGen H.Super t t
  base : ∀ t ∈ U, t.isDecl .classDecl ∨ t.isDecl .delegateDecl →
    ∀ b ∈ (H.direct t).base, b = .object ∨ b.isDecl .classDecl
  interfaceBase : ∀ t ∈ U, t.isDecl .interfaceDecl → (H.direct t).base = none
  interfaces : ∀ t ∈ U, ∀ i ∈ (H.direct t).interfaces, i.isDecl .interfaceDecl
  kind : ∀ t ∈ U, ∀ u ∈ U, t.key = u.key → t.kindText = u.kindText
  baseKey : ∀ t ∈ U, ∀ u ∈ U, t.key = u.key → (H.direct t).base.map Ty.key = (H.direct u).base.map Ty.key
  interfaceKeys : ∀ t ∈ U, ∀ u ∈ U, t.key = u.key →
    (H.direct t).interfaces.map Ty.key = (H.direct u).interfaces.map Ty.key

namespace Universe

variable {U : Set Ty} {a b c t u : Ty} (lawful : H.Universe U)
include lawful

section

variable (ht : t ∈ U)
include ht

theorem of_transGen (reach : TransGen H.Super t u) : u ∈ U := by
  induction reach with
  | single step => exact lawful.direct t ht _ step
  | tail _ step ih => exact lawful.direct _ ih _ step

theorem acyclicFrom : H.AcyclicFrom t := by
  intro s reach
  rcases reflTransGen_iff_eq_or_transGen.mp reach with rfl | reach
  · exact lawful.acyclic _ ht
  · exact lawful.acyclic _ (lawful.of_transGen ht reach)

theorem exists_mem_supertypes (k : String) : (∃ s ∈ H.supertypes t, s.key = k) ↔ ∃ s, TransGen H.Super t s ∧ s.key = k :=
  exists_mem_supertypes_iff (lawful.acyclicFrom ht) k

/-! ### Types with one key -/

section

variable (hu : u ∈ U)
include hu

section

variable (key : t.key = u.key)
include key

theorem isReferenceType_congr : t.isReferenceType = u.isReferenceType := by
  rw [t.flags_eq.1, u.flags_eq.1, lawful.kind t ht u hu key]

theorem isUntyped_congr : t.isUntyped = u.isUntyped := by
  rw [t.flags_eq.2.1, u.flags_eq.2.1, lawful.kind t ht u hu key]

theorem isArray_congr : t.isArray = u.isArray := by
  rw [t.flags_eq.2.2.1, u.flags_eq.2.2.1, lawful.kind t ht u hu key]

theorem isNull_congr : t.isNull = u.isNull := by
  rw [t.flags_eq.2.2.2, u.flags_eq.2.2.2, lawful.kind t ht u hu key]

theorem super_congr {s : Ty} (step : H.Super t s) : ∃ s', H.Super u s' ∧ s'.key = s.key := by
  rcases mem_append.mp step with step | step
  · have base := lawful.baseKey t ht u hu key
    rw [Option.mem_toList.mp step, Option.map_some, eq_comm, Option.map_eq_some_iff] at base
    obtain ⟨s', there, same⟩ := base
    exact ⟨s', mem_append_left _ (Option.mem_toList.mpr there), same⟩
  · have mem := mem_map_of_mem (f := Ty.key) step
    rw [lawful.interfaceKeys t ht u hu key] at mem
    obtain ⟨s', there, same⟩ := mem_map.mp mem
    exact ⟨s', mem_append_right _ there, same⟩

/-- Types with one key have ancestors with the same keys. -/
theorem transGen_congr {s : Ty} (reach : TransGen H.Super t s) : ∃ s', TransGen H.Super u s' ∧ s'.key = s.key := by
  induction reach with
  | single step =>
    obtain ⟨s', step, same⟩ := lawful.super_congr ht hu key step
    exact ⟨s', .single step, same⟩
  | tail reach step ih =>
    obtain ⟨m, reach', same⟩ := ih
    have left := lawful.of_transGen ht reach
    have right := lawful.of_transGen hu reach'
    obtain ⟨s', step, same⟩ := lawful.super_congr left right same.symm step
    exact ⟨s', reach'.tail step, same⟩

end

/-! ### Where references lead -/

omit hu in
/-- The direct supertypes of a reference type are the root, classes and interfaces. -/
theorem super_of_isReferenceType (reference : t.isReferenceType = true) {s : Ty} (step : H.Super t s) :
    s = .object ∨ s.isDecl .classDecl ∨ s.isDecl .interfaceDecl := by
  by_cases declared : t.isDecl .classDecl ∨ t.isDecl .delegateDecl
  · rcases mem_append.mp step with step | step
    · exact (lawful.base t ht declared s (Option.mem_toList.mp step)).imp_right .inl
    · exact .inr (.inr (lawful.interfaces t ht s step))
  · by_cases interface : t.isDecl .interfaceDecl
    · rw [Super, Supers.toList, lawful.interfaceBase t ht interface] at step
      exact .inr (.inr (lawful.interfaces t ht s step))
    · have plain : t.head? = none := by cases t <;> simp_all [Ty.isReferenceType, Ty.head?]
      exact .inl (eq_object_of_super plain step)

omit hu in
theorem transGen_of_isReferenceType (reference : t.isReferenceType = true) {s : Ty} (reach : TransGen H.Super t s) :
    s.isReferenceType = true ∧ s.isArray = false ∧ s.isNull = false := by
  have shape {s : Ty} (above : s = .object ∨ s.isDecl .classDecl ∨ s.isDecl .interfaceDecl) :
      s.isReferenceType = true ∧ s.isArray = false ∧ s.isNull = false := by
    rcases above with rfl | above | above
    · exact ⟨rfl, rfl, rfl⟩
    all_goals cases s <;> simp_all [Ty.isDecl, Ty.declKind?, Ty.head?, Ty.isReferenceType, Ty.isArray, Ty.isNull]
  induction reach with
  | single step => exact shape (lawful.super_of_isReferenceType ht reference step)
  | tail reach step ih =>
    exact shape (lawful.super_of_isReferenceType (lawful.of_transGen ht reach) ih.1 step)

/-- Only untyped places take an untyped value, or an array where no array is wanted. -/
theorem isUntyped_of_assignable (assigned : H.assignable t u = true)
    (only : t.isUntyped = true ∨ t.isArray = true ∧ u.isArray = false) : u.isUntyped = true := by
  have value : t.isNull = false := by cases t <;> simp_all [Ty.isUntyped, Ty.isArray, Ty.isNull]
  have flat : t.isArray = false ∨ u.isArray = false := by
    cases t <;> simp_all [Ty.isUntyped, Ty.isArray]
  rcases (assignable_iff value flat).mp assigned with key | untyped | ⟨-, above⟩
  · rcases only with untyped | ⟨array, other⟩
    · exact lawful.isUntyped_congr ht hu key ▸ untyped
    · rw [lawful.isArray_congr ht hu key, other] at array
      cases array
  · exact untyped
  · obtain ⟨s, reach, key⟩ := (lawful.exists_mem_supertypes ht u.key).mp above
    have plain : t.head? = none := by cases t <;> simp_all [Ty.isUntyped, Ty.isArray, Ty.head?]
    have root := lawful.isUntyped_congr (lawful.of_transGen ht reach) hu key
    rw [← root, eq_object_of_transGen plain reach]
    rfl

theorem isReferenceType_of_assignable (assigned : H.assignable t u = true) (reference : t.isReferenceType = true) :
    u.isReferenceType = true := by
  by_cases arrays : t.isArray = true ∧ u.isArray = true
  · cases u with
    | array f => rfl
    | _ => cases arrays.2
  · have value : t.isNull = false := by
      cases t with
      | null => cases reference
      | _ => rfl
    have flat : t.isArray = false ∨ u.isArray = false := by simpa [Decidable.imp_iff_not_or] using arrays
    rcases (assignable_iff value flat).mp assigned with key | untyped | ⟨-, above⟩
    · exact lawful.isReferenceType_congr ht hu key ▸ reference
    · exact Ty.isReferenceType_of_isUntyped untyped
    · obtain ⟨s, reach, key⟩ := (lawful.exists_mem_supertypes ht u.key).mp above
      have shape := lawful.transGen_of_isReferenceType ht reference reach
      exact lawful.isReferenceType_congr (lawful.of_transGen ht reach) hu key ▸ shape.1

end

end

/-! ### Rules compose -/

/-- A type stands wherever another with its key or, being a reference, one of its ancestors stands. -/
theorem assignable_of_above (ha : a ∈ U) (value : a.isNull = false) (plain : a.isArray = false) (hb : b ∈ U)
    (above : a.key = b.key ∨ a.isReferenceType = true ∧ ∃ s, TransGen H.Super a s ∧ s.key = b.key)
    (assigned : H.assignable b c = true) : H.assignable a c = true := by
  -- `b` is no array and not null either, so that what follows from it follows from a key and an ancestor.
  obtain ⟨valueB, plainB⟩ : b.isNull = false ∧ b.isArray = false := by
    rcases above with key | ⟨reference, s, reach, key⟩
    · exact ⟨lawful.isNull_congr ha hb key ▸ value, lawful.isArray_congr ha hb key ▸ plain⟩
    · have hs := lawful.of_transGen ha reach
      have shape := lawful.transGen_of_isReferenceType ha reference reach
      exact ⟨lawful.isNull_congr hs hb key ▸ shape.2.2, lawful.isArray_congr hs hb key ▸ shape.2.1⟩
  rw [assignable_iff value (.inl plain), lawful.exists_mem_supertypes ha]
  rw [assignable_iff valueB (.inl plainB), lawful.exists_mem_supertypes hb] at assigned
  rcases assigned with key | untyped | ⟨reference, s, reach, key⟩
  · exact (key ▸ above).imp_right .inr
  · exact .inr (.inl untyped)
  · rcases above with same | ⟨referenceA, m, reachM, same⟩
    · obtain ⟨s', reach', key'⟩ := lawful.transGen_congr hb ha same.symm reach
      have referenceA := lawful.isReferenceType_congr ha hb same ▸ reference
      exact .inr (.inr ⟨referenceA, s', reach', key'.trans key⟩)
    · obtain ⟨s', reach', key'⟩ := lawful.transGen_congr hb (lawful.of_transGen ha reachM) same.symm reach
      exact .inr (.inr ⟨referenceA, s', reachM.trans reach', key'.trans key⟩)

theorem assignable_trans_null (hb : b ∈ U) (hc : c ∈ U) (ha : .null ∈ U) (ab : H.assignable .null b = true)
    (bc : H.assignable b c = true) : H.assignable .null c = true := by
  rcases assignable_null_iff.mp ab with key | reference
  · cases b with
    | null => exact bc
    | _ => cases lawful.isNull_congr ha hb key
  · exact assignable_null_iff.mpr (.inr (lawful.isReferenceType_of_assignable hb hc bc reference))

theorem assignable_trans_plain (ha : a ∈ U) (value : a.isNull = false) (plain : a.isArray = false) (hb : b ∈ U)
    (hc : c ∈ U) (ab : H.assignable a b = true) (bc : H.assignable b c = true) : H.assignable a c = true := by
  rw [assignable_iff value (.inl plain), lawful.exists_mem_supertypes ha] at ab
  rcases ab with key | untyped | above
  · exact lawful.assignable_of_above ha value plain hb (.inl key) bc
  · have untyped := lawful.isUntyped_of_assignable hb hc bc (.inl untyped)
    exact (assignable_iff value (.inl plain)).mpr (.inr (.inl untyped))
  · exact lawful.assignable_of_above ha value plain hb (.inr above) bc

theorem assignable_trans {a b c : Ty} (ha : a ∈ U) (hb : b ∈ U) (hc : c ∈ U) (ab : H.assignable a b = true)
    (bc : H.assignable b c = true) : H.assignable a c = true := by
  by_cases null : a = .null
  · exact null ▸ lawful.assignable_trans_null hb hc (null ▸ ha) (null ▸ ab) bc
  have value : a.isNull = false := by
    cases a with
    | null => exact absurd rfl null
    | _ => rfl
  cases array : a.isArray with
  | false => exact lawful.assignable_trans_plain ha value array hb hc ab bc
  | true =>
    by_cases arrays : b.isArray = true ∧ c.isArray = true
    · -- Only here is an element looked at, and the recursion is on it.
      obtain ⟨e, rfl⟩ := Ty.exists_array array
      obtain ⟨f, rfl⟩ := Ty.exists_array arrays.1
      obtain ⟨g, rfl⟩ := Ty.exists_array arrays.2
      have he := lawful.elem e ha
      have hf := lawful.elem f hb
      have hg := lawful.elem g hc
      rw [assignable_array_iff] at ab bc ⊢
      rcases ab with ef | ⟨reference, ef⟩
      · rcases bc with fg | ⟨reference, fg⟩
        · exact .inl (ef.trans fg)
        · have eg := assignable_trans he hf hg (assignable_of_key ef) fg
          exact .inr ⟨lawful.isReferenceType_congr he hf ef ▸ reference, eg⟩
      · have fg : H.assignable f g = true := bc.elim assignable_of_key And.right
        exact .inr ⟨reference, assignable_trans he hf hg ef fg⟩
    · -- Where arrays end, an untyped place comes next and stays.
      have untyped : c.isUntyped = true := by
        cases arrayB : b.isArray with
        | true =>
          have other : c.isArray = false := by simpa [arrayB] using arrays
          exact lawful.isUntyped_of_assignable hb hc bc (.inr ⟨arrayB, other⟩)
        | false =>
          have untyped := lawful.isUntyped_of_assignable ha hb ab (.inr ⟨array, arrayB⟩)
          exact lawful.isUntyped_of_assignable hb hc bc (.inl untyped)
      exact (assignable_iff value (.inr (Ty.isArray_of_isUntyped untyped))).mpr (.inr (.inl untyped))
termination_by sizeOf a

end Universe

/-- **Assignability is a preorder** on every universe of types. -/
theorem assignable_preorder {U : Set Ty} (lawful : H.Universe U) :
    (∀ t ∈ U, H.assignable t t = true) ∧
      ∀ a ∈ U, ∀ b ∈ U, ∀ c ∈ U, H.assignable a b = true → H.assignable b c = true → H.assignable a c = true :=
  ⟨fun _ _ => assignable_of_key rfl, fun _ ha _ hb _ hc => lawful.assignable_trans ha hb hc⟩

/-! ## A universe with generic classes and arrays -/

namespace Shapes

/-- An interface without supertypes. -/
def drawable : TypeHead := ⟨.interfaceDecl, "N", "IDrawable", [], ""⟩

def shape : TypeHead := ⟨.classDecl, "N", "Shape", [], ""⟩

def ring : TypeHead := ⟨.classDecl, "N", "Ring", ["T"], ""⟩

/-- What can be enumerated with elements of a type. -/
def sequenceOf (t : Ty) : Ty := .closed Ty.enumerableOfHead [t] none [.named Ty.enumerableHead]

/-- The generic class applied to a type. -/
def ringOf (t : Ty) : Ty := .closed ring [t] (some (.named shape)) [sequenceOf t]

def hierarchy : Hierarchy where
  rows := [(ring.key, ⟨some (.named shape), [sequenceOf (.param "T")]⟩),
    (shape.key, ⟨some .object, [.named drawable]⟩)]

/-- Types of all sorts, each behind its supertypes. -/
def types : List Ty :=
  [.object, .named Ty.enumerableHead, sequenceOf .string, .named drawable, .named shape, ringOf .string,
    .null, .dynamic, .string, .int, .param "T", .array (.named drawable), .array (.named shape),
    .array (ringOf .string), .array (.array (ringOf .string))]

theorem direct_shape : hierarchy.direct (.named shape) = ⟨some .object, [.named drawable]⟩ := rfl

theorem direct_drawable : hierarchy.direct (.named drawable) = {} := rfl

theorem direct_enumerable : hierarchy.direct (.named Ty.enumerableHead) = {} := rfl

theorem direct_mem : ∀ t ∈ types, ∀ s, hierarchy.Super t s → s ∈ types := by
  simp only [types, forall_mem_cons, Super, direct_shape, direct_drawable, direct_enumerable, ringOf, sequenceOf]
  simp [direct, Supers.toList, or_imp, forall_and]

theorem universe_types : hierarchy.Universe {t | t ∈ types} where
  direct := direct_mem
  elem := by simp [types, ringOf, sequenceOf]
  acyclic := by
    -- In the list every type stands behind its direct supertypes.
    let place (t : Ty) : Nat := (types.map Ty.key).idxOf t.key
    have lower : ∀ t ∈ types, ∀ s ∈ Supers.toList (hierarchy.direct t), place s < place t := by decide +kernel
    exact fun t here => not_transGen_self_of_rank (fun t s ht => direct_mem t ht s) (fun t s ht => lower t ht s) here
  base := by
    simp only [types, Set.mem_ofPred_eq, forall_mem_cons, direct_shape, direct_drawable, direct_enumerable, ringOf,
      sequenceOf]
    simp [direct, Ty.isDecl, Ty.declKind?, Ty.head?, shape]
  interfaceBase := by simp only [Set.mem_ofPred_eq]; decide +kernel
  interfaces := by simp only [Set.mem_ofPred_eq]; decide +kernel
  kind := by simp only [Set.mem_ofPred_eq]; decide +kernel
  baseKey := by simp only [Set.mem_ofPred_eq]; decide +kernel
  interfaceKeys := by simp only [Set.mem_ofPred_eq]; decide +kernel

theorem assignable_rings :
    hierarchy.Universe {t | t ∈ types} ∧
      hierarchy.assignable (.array (ringOf .string)) (.array (.named shape)) = true ∧
      hierarchy.assignable (.array (.named shape)) (.array (.named drawable)) = true ∧
      hierarchy.assignable (.array (ringOf .string)) (.array (.named drawable)) = true := by
  have first : hierarchy.assignable (.array (ringOf .string)) (.array (.named shape)) = true := by decide +kernel
  have second : hierarchy.assignable (.array (.named shape)) (.array (.named drawable)) = true := by decide +kernel
  have both := (assignable_preorder universe_types).2 _ (by simp [types]) _ (by simp [types]) _ (by simp [types])
    first second
  exact ⟨universe_types, first, second, both⟩

end Shapes

end Hierarchy

end Polyglot
