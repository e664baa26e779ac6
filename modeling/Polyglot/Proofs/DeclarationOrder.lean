import Mathlib.Data.List.Nodup
import Mathlib.Data.List.Perm.Basic
import Polyglot.Prelude
import Polyglot.Proofs.Passes
import Polyglot.Proofs.Supertypes

/-!
# The order of declarations

An instance of a generic definition keeps the supertypes that the definition has at that moment. So a class that is declared
before its generic base misses what the base is going to inherit.

The order does not matter for anything else. A compilation is *settled* when each declaration without type parameters has the
supertypes that its texts mean in the finished compilation. Two settled compilations of the same declarations, in whatever
order, agree on all supertypes. A document that lists its generic declarations first is settled.
-/

namespace Polyglot

open List

namespace Compilation

variable {w w' : World}

/-! ## Worlds with the same types -/

/-- The same types in two worlds: the names in reach, the definitions and their supertypes. -/
structure SameTypes (w w' : World) : Prop where
  lookup : ∀ k, w.index.byKey.lookup k = w'.index.byKey.lookup k
  hierarchy : w.hierarchy = w'.hierarchy
  usings : w.usings = w'.usings

theorem SameTypes.symm (h : SameTypes w w') : SameTypes w' w :=
  ⟨fun k => (h.lookup k).symm, h.hierarchy.symm, h.usings.symm⟩

theorem SameTypes.trans {w'' : World} (first : SameTypes w w') (second : SameTypes w' w'') : SameTypes w w'' where
  lookup := fun k => (first.lookup k).trans (second.lookup k)
  hierarchy := first.hierarchy.trans second.hierarchy
  usings := first.usings.trans second.usings

theorem KeepsTypes.sameTypes (h : KeepsTypes w w') : SameTypes w w' :=
  ⟨fun k => by rw [h.index], h.hierarchy.symm, h.usings.symm⟩

/-- Texts mean the same where types are the same. -/
theorem SameTypes.read_eq (h : SameTypes w w') (params : List String) (space text : String) :
    TypeExpr.read (scopeIn w' params space) text = TypeExpr.read (scopeIn w params space) text := by
  have scope : scopeIn w' params space = { scopeIn w params space with index := w'.index } := by
    rw [scopeIn, scopeIn, ← h.hierarchy, ← h.usings]
  rw [scope]
  exact TypeExpr.read_index h.lookup text

/-! ## The declarations of the document itself -/

/-- A world in which some declarations of a document may be given their supertypes: their definitions are known,
all different, and have none yet. -/
structure Ready (drafts : List TypeDraft) (w : World) : Prop where
  sound : w.index.Sound
  proper : w.hierarchy.Proper w.index
  nodup : w.hierarchy.keys.Nodup
  distinct : (drafts.map (·.head.key)).Nodup
  known : ∀ d ∈ drafts, w.index.Knows d.head
  builtin : ∀ d ∈ drafts, Ty.builtins.lookup d.head.key = none
  bare : ∀ d ∈ drafts, d.head.key ∉ w.hierarchy.keys

namespace Ready

variable {drafts drafts' : List TypeDraft} {v v' : World}

theorem perm (ready : Ready drafts w) (order : drafts.Perm drafts') : Ready drafts' w where
  sound := ready.sound
  proper := ready.proper
  nodup := ready.nodup
  distinct := (order.map _).nodup_iff.mp ready.distinct
  known := fun d hd => ready.known d (order.mem_iff.mpr hd)
  builtin := fun d hd => ready.builtin d (order.mem_iff.mpr hd)
  bare := fun d hd => ready.bare d (order.mem_iff.mpr hd)

variable {d : TypeDraft} {h : TypeHead}

section

variable (ready : Ready drafts w)
include ready

theorem isBuiltin (hd : d ∈ drafts) : (ownEntry d).isBuiltin = false := by
  change (Ty.builtins.lookup d.head.key).isSome = false
  rw [ready.builtin d hd, Option.isSome_none]

theorem declares_iff (hd : d ∈ drafts) (k : String) : (ownEntry d).Declares k ↔ k = d.head.key := by
  have type : (ownEntry d).type = .named d.head := rfl
  simp [Entry.Declares, ready.isBuiltin hd, type]

theorem known_own : ∀ e ∈ drafts.map ownEntry, ∀ h, e.type = .named h → w.index.Knows h := by
  rintro e he h type
  obtain ⟨d, hd, rfl⟩ := mem_map.mp he
  cases type
  exact ready.known d hd

section

variable (run : (drafts.map ownEntry).foldlM declareSupertypes w = .ok v)
include run

theorem declared : Declared (drafts.map ownEntry) w v :=
  foldlM_declared ready.sound ready.proper ready.known_own run

/-- Definitions that no declaration of the document is about keep their supertypes. -/
theorem supers_other (other : ∀ d ∈ drafts, h.key ≠ d.head.key) : v.hierarchy.supers h = w.hierarchy.supers h := by
  refine (ready.declared run).other h fun e he => ?_
  obtain ⟨d, hd, rfl⟩ := mem_map.mp he
  rw [ready.declares_iff hd]
  exact other d hd

/-- **The supertypes of a declared definition** are those of all definitions of its kind, and what the texts of the
declaration mean at some moment of the run. -/
theorem supers_own {before after : List TypeDraft} (place : drafts = before ++ d :: after) :
    ∃ u u' base interfaces, Declared (before.map ownEntry) w u ∧ Declared (after.map ownEntry) u' v ∧
      d.Means (Reads (scopeOf w d.typeParameters (.named d.head)) (Passes u u' d.head)) base interfaces ∧
      Extends u u' d.head ((u.hierarchy.supers d.head).extend base interfaces) d.Inherits ∧
      v.hierarchy.supers d.head = (Hierarchy.defaultSupers d.head).extend base interfaces := by
  have hd : d ∈ drafts := by simp [place]
  have entries : drafts.map ownEntry = before.map ownEntry ++ ownEntry d :: after.map ownEntry := by simp [place]
  have known := ready.known_own
  have distinct := ready.distinct
  rw [entries] at run known
  rw [place, map_append, map_cons, nodup_middle, nodup_cons, ← map_append] at distinct
  rw [← Hierarchy.supers_of_not_mem_keys (ready.bare d hd)]
  refine foldlM_at ready.sound ready.proper (e := ownEntry d) rfl (ready.isBuiltin hd) known ?_ run
  intro e he
  rw [← map_append] at he
  obtain ⟨d', hd', rfl⟩ := mem_map.mp he
  have among : d' ∈ drafts := by
    rw [place, mem_append, mem_cons]
    exact (mem_append.mp hd').imp id .inr
  rw [ready.declares_iff among]
  exact fun same => distinct.1 (mem_map.mpr ⟨d', hd', same.symm⟩)

/-- Which definitions have supertypes of their own does not depend on the order. -/
theorem mem_keys (k : String) : k ∈ v.hierarchy.keys ↔ k ∈ w.hierarchy.keys ∨ ∃ d ∈ drafts, k = d.head.key ∧ d.Inherits := by
  rw [(ready.declared run).keys]
  refine or_congr_right ⟨?_, ?_⟩
  · rintro ⟨e, he, declares, inherits⟩
    obtain ⟨d, hd, rfl⟩ := mem_map.mp he
    exact ⟨d, hd, (ready.declares_iff hd k).mp declares, inherits⟩
  · rintro ⟨d, hd, key, inherits⟩
    exact ⟨ownEntry d, mem_map_of_mem hd, (ready.declares_iff hd k).mpr key, inherits⟩

end

theorem eq_head (known : w.index.Knows h) (hd : d ∈ drafts) (key : h.key = d.head.key) : h = d.head := by
  have found := ready.known d hd
  rw [TypeIndex.Knows, ← key, known] at found
  cases found
  rfl

/-- A known definition is that of a declaration of the document, or no declaration of it is about it. -/
theorem own_or_other (known : w.index.Knows h) : (∃ d ∈ drafts, h = d.head) ∨ ∀ d ∈ drafts, h.key ≠ d.head.key := by
  by_cases own : ∃ d ∈ drafts, h.key = d.head.key
  · obtain ⟨d, hd, key⟩ := own
    exact .inl ⟨d, hd, ready.eq_head known hd key⟩
  · exact .inr fun d hd same => own ⟨d, hd, same⟩

section

variable (order : drafts.Perm drafts') (run : (drafts.map ownEntry).foldlM declareSupertypes w = .ok v)
  (run' : (drafts'.map ownEntry).foldlM declareSupertypes w = .ok v')
include order run run'

theorem rows_length : v.hierarchy.rows.length = v'.hierarchy.rows.length := by
  have ready' := ready.perm order
  have nodup := (ready.declared run).nodup ready.nodup
  have nodup' := (ready'.declared run').nodup ready.nodup
  have same : v.hierarchy.keys.Perm v'.hierarchy.keys := by
    refine (perm_ext_iff_of_nodup nodup nodup').mpr fun k => ?_
    rw [ready.mem_keys run, ready'.mem_keys run']
    simp only [order.mem_iff]
  simpa [Hierarchy.keys] using same.length_eq

/-- **Whatever the order, supertypes have the same shapes.** -/
theorem sameShapes : Hierarchy.SameShapes w.index v.hierarchy v'.hierarchy := by
  have ready' := ready.perm order
  intro h known _
  rcases ready.own_or_other known with ⟨d, hd, rfl⟩ | other
  · obtain ⟨before, after, place⟩ := append_of_mem hd
    obtain ⟨before', after', place'⟩ := append_of_mem (order.mem_iff.mp hd)
    obtain ⟨_, _, base, interfaces, -, -, means, -, supers⟩ := ready.supers_own run place
    obtain ⟨_, _, base', interfaces', -, -, means', -, supers'⟩ := ready'.supers_own run' place'
    obtain ⟨bases, rest⟩ := means.map_eq (f := Ty.shape) (fun _ _ _ ht hu => ht.shape_eq hu) means'
    rw [supers, supers']
    exact Supers.shape_extend _ bases rest
  · rw [ready.supers_other run other, ready'.supers_other run' fun d hd => other d (order.mem_iff.mpr hd)]

/-- **Whatever the order, definitions are instantiated alike.** -/
theorem closes : Ty.Closes w.index v.hierarchy.instantiate? v'.hierarchy.instantiate? := by
  have depth : v'.hierarchy.depth = v.hierarchy.depth := by
    rw [Hierarchy.depth, Hierarchy.depth, ready.rows_length order run run']
  have alike := Hierarchy.instantiateWithin_closes (ready.declared run).proper ((ready.perm order).declared run').proper
    (ready.sameShapes order run run') v.hierarchy.depth
  intro h args
  rw [Hierarchy.instantiate?, Hierarchy.instantiate?, depth]
  exact alike h args

end

end

end Ready

/-! ## Settled declarations -/

/-- **Each declaration without type parameters has the supertypes that its texts mean** in the finished world. -/
def Settled (drafts : List TypeDraft) (w : World) : Prop :=
  ∀ d ∈ drafts, d.typeParameters = [] → ∃ base interfaces,
    d.Means (fun text t => TypeExpr.read (scopeIn w [] d.head.space) text = .ok t) base interfaces ∧
    w.hierarchy.supers d.head = (Hierarchy.defaultSupers d.head).extend base interfaces

section Settled

variable {drafts drafts' : List TypeDraft} {v v' : World}

theorem Settled.samePlain (ready : Ready drafts w) (order : drafts.Perm drafts')
    (run : (drafts.map ownEntry).foldlM declareSupertypes w = .ok v)
    (run' : (drafts'.map ownEntry).foldlM declareSupertypes w = .ok v') (settled : Settled drafts v)
    (settled' : Settled drafts' v') : Hierarchy.SamePlain w.index v.hierarchy v'.hierarchy := by
  intro h known params
  rcases ready.own_or_other known with ⟨d, hd, rfl⟩ | other
  · obtain ⟨base, interfaces, means, supers⟩ := settled d hd params
    obtain ⟨base', interfaces', means', supers'⟩ := settled' d (order.mem_iff.mp hd) params
    have world := (ready.declared run).world
    have world' := ((ready.perm order).declared run').world
    have same (text : String) (t u : Ty)
        (ht : TypeExpr.read (scopeIn v [] d.head.space) text = .ok t)
        (hu : TypeExpr.read (scopeIn v' [] d.head.space) text = .ok u) : t = u := by
      rw [world] at ht
      rw [world'] at hu
      exact TypeExpr.read_unique ready.sound (ready.closes order run run') ht hu
    obtain ⟨bases, rest⟩ := means.map_eq (f := id) same means'
    rw [Option.map_id_fun, id, id] at bases
    rw [map_id, map_id] at rest
    rw [supers, supers', bases, rest]
  · rw [ready.supers_other run other,
      (ready.perm order).supers_other run' fun d hd => other d (order.mem_iff.mpr hd)]

theorem Settled.congr (same : SameTypes v v') (settled : Settled drafts v) : Settled drafts v' := by
  intro d hd plain
  obtain ⟨base, interfaces, means, supers⟩ := settled d hd plain
  refine ⟨base, interfaces, means.imp fun text t read => ?_, same.hierarchy ▸ supers⟩
  rw [same.read_eq]
  exact read

/-- Generic declarations stand before all others. -/
def GenericsFirst (drafts : List TypeDraft) : Prop :=
  drafts.Pairwise fun a b => b.typeParameters ≠ [] → a.typeParameters ≠ []

instance (drafts : List TypeDraft) : Decidable (GenericsFirst drafts) :=
  inferInstanceAs (Decidable (drafts.Pairwise _))

/-- **Where generic declarations stand first, all declarations are settled**: when the others are read, generic
definitions have all the supertypes that they are ever going to have. -/
theorem settled_of_genericsFirst (ready : Ready drafts w)
    (run : (drafts.map ownEntry).foldlM declareSupertypes w = .ok v) (first : GenericsFirst drafts) :
    Settled drafts v := by
  intro d hd plain
  obtain ⟨before, after, place⟩ := append_of_mem hd
  obtain ⟨u, u', base, interfaces, declBefore, declAfter, means, adds, supers⟩ := ready.supers_own run place
  have plainAfter : ∀ d' ∈ after, d'.typeParameters = [] := by
    intro d' hd'
    by_contra generic
    have order := first
    rw [GenericsFirst, place, pairwise_append, pairwise_cons] at order
    exact order.2.1.1 d' hd' generic plain
  refine ⟨base, interfaces, means.imp fun text t => ?_, supers⟩
  rintro ⟨H, passes, read⟩
  have proper : H.Proper w.index := declBefore.index ▸ passes.proper
  have generics : Hierarchy.SameShapes w.index H v.hierarchy := by
    intro h known generic
    have ne : h.key ≠ d.head.key := by
      intro same
      rw [ready.eq_head known hd same] at generic
      exact generic plain
    have later : v.hierarchy.supers h = u'.hierarchy.supers h := by
      refine declAfter.other h fun e he declares => ?_
      obtain ⟨d', hd', rfl⟩ := mem_map.mp he
      have among : d' ∈ drafts := by simp [place, hd']
      rw [ready.eq_head known among ((ready.declares_iff among _).mp declares)] at generic
      exact generic (plainAfter d' hd')
    rw [later, adds.passes.other h ne, passes.other h ne]
  have depth : H.depth ≤ v.hierarchy.depth := by
    have nodup := passes.nodup (declBefore.nodup ready.nodup)
    have subset : H.keys ⊆ v.hierarchy.keys := fun k hk => (declAfter.keys k).mpr (.inl (passes.keys hk))
    have length := (subperm_of_subset nodup subset).length_le
    rw [Hierarchy.keys, Hierarchy.keys, length_map, length_map] at length
    exact Nat.add_le_add_right length 2
  have alike := Hierarchy.instantiateWithin_closes proper (ready.declared run).proper generics H.depth
  rw [(ready.declared run).world]
  rw [plain] at read
  refine TypeExpr.read_mono (s := { scopeOf w [] (.named d.head) with hierarchy := H }) ready.sound
    (Hierarchy.closes_self proper) ?_ read
  intro h args t known nonempty arity hargs made
  refine Hierarchy.instantiateWithin_mono depth ?_
  rw [← (alike h args known nonempty arity hargs).1]
  exact made

end Settled

/-! ## Loading -/

section Passes

variable {w₁ w₂ w₃ : World} {externals types : List (Option TypeDraft)} {known own : List Entry}

/-- **When types are entered and the known ones have their supertypes**, those of the document can be declared. -/
theorem ready_of_passes (named : ∀ d, some d ∈ externals ++ types → d.WellNamed) (sound : w.index.Sound)
    (empty : w.hierarchy = {}) (hknown : declareTypes true externals w = .ok (w₁, known))
    (hown : declareTypes false types w₁ = .ok (w₂, own)) (run : known.foldlM declareSupertypes w₂ = .ok w₃) :
    own = (types.filterMap id).map ownEntry ∧ Ready (types.filterMap id) w₃ ∧ w₃.index = w₂.index := by
  have namedOwn (d : TypeDraft) (hd : some d ∈ types) : d.WellNamed := named d (mem_append_right _ hd)
  obtain ⟨sound₁, world₁, -, entries₁⟩ :=
    declareTypes_known (fun d hd => named d (mem_append_left _ hd)) sound hknown
  obtain ⟨sound₂, world₂, keeps, entries₂⟩ := declareTypes_known namedOwn sound₁ hown
  obtain ⟨drafts, rfl, rfl, distinct, new, -⟩ := declareTypes_own namedOwn hown
  have same : (drafts.map some).filterMap id = drafts := by simp
  have empty₂ : w₂.hierarchy = {} := by rw [world₂, world₁, empty]
  have proper₂ : w₂.hierarchy.Proper w₂.index := empty₂ ▸ Hierarchy.proper_empty sound₂
  have declared := foldlM_declared sound₂ proper₂ (fun e he h type => keeps h (entries₁ e he h type)) run
  rw [same]
  refine ⟨rfl, ⟨?_, ?_, ?_, distinct, ?_, ?_, ?_⟩, declared.index⟩
  · exact declared.index ▸ sound₂
  · exact declared.index ▸ declared.proper
  · exact declared.nodup (by rw [empty₂]; exact nodup_nil)
  · exact fun d hd => declared.index ▸ entries₂ (ownEntry d) (mem_map_of_mem hd) d.head rfl
  · intro d hd
    rw [Option.eq_none_iff_forall_not_mem]
    intro t found
    have there := sound₁.builtin _ t found
    rw [new d hd] at there
    cases there
  · intro d hd mem
    rcases (declared.keys d.head.key).mp mem with mem | ⟨e, he, ⟨-, h, type, key⟩, -⟩
    · rw [empty₂] at mem
      cases mem
    · have there := entries₁ e he h type
      rw [TypeIndex.Knows, ← key, new d hd] at there
      cases there

theorem find?_key_eq_some {drafts : List TypeDraft} (distinct : (drafts.map (·.head.key)).Nodup) {k : String}
    {d : TypeDraft} : drafts.find? (·.head.key = k) = some d ↔ d ∈ drafts ∧ d.head.key = k := by
  constructor
  · intro found
    exact ⟨mem_of_find?_eq_some found, by simpa using find?_some found⟩
  · rintro ⟨hd, key⟩
    cases found : drafts.find? (·.head.key = k) with
    | none => exact absurd key (by simpa using find?_eq_none.mp found d hd)
    | some d' =>
      have key' : d'.head.key = k := by simpa using find?_some found
      rw [inj_on_of_nodup_map distinct (mem_of_find?_eq_some found) hd (key'.trans key.symm)]

/-- **The order in which types are entered** shows in no definition of the index. -/
theorem sameTypes_of_perm {types' : List (Option TypeDraft)} {own' : List Entry} {w₂' : World}
    (named : ∀ d, some d ∈ types → d.WellNamed) (sound : w₁.index.Sound) (order : types.Perm types')
    (hown : declareTypes false types w₁ = .ok (w₂, own)) (hown' : declareTypes false types' w₁ = .ok (w₂', own')) :
    w₂' = { w₂ with index := w₂'.index } ∧ ∀ k, w₂.index.byKey.lookup k = w₂'.index.byKey.lookup k := by
  have named' (d : TypeDraft) (hd : some d ∈ types') : d.WellNamed := named d (order.mem_iff.mpr hd)
  obtain ⟨-, world, -, -⟩ := declareTypes_known named sound hown
  obtain ⟨-, world', -, -⟩ := declareTypes_known named' sound hown'
  obtain ⟨drafts, rfl, -, distinct, -, lookup⟩ := declareTypes_own named hown
  obtain ⟨drafts', rfl, -, distinct', -, lookup'⟩ := declareTypes_own named' hown'
  refine ⟨by rw [world', world], fun k => ?_⟩
  have found : drafts.find? (·.head.key = k) = drafts'.find? (·.head.key = k) := by
    ext d
    have mem : d ∈ drafts ↔ d ∈ drafts' := by simpa using order.mem_iff (a := some d)
    rw [find?_key_eq_some distinct, find?_key_eq_some distinct', mem]
  rw [lookup, lookup', found]

end Passes

section Orders

variable {prelude : List TypeDraft} {file : String} {doc : Document} {types : List (Option TypeDraft)}
  {c c' : Compilation}

/-- Two orders of one document, told as two runs from one world. -/
theorem runs_of_perm (named : ∀ d, some d ∈ prelude.map some ++ doc.externals ++ doc.types → d.WellNamed)
    (order : doc.types.Perm types) (load : ofDocument prelude file doc = .ok c)
    (load' : ofDocument prelude file { doc with types } = .ok c') :
    ∃ w v v', Ready (doc.types.filterMap id) w ∧
      ((doc.types.filterMap id).map ownEntry).foldlM declareSupertypes w = .ok v ∧
      ((types.filterMap id).map ownEntry).foldlM declareSupertypes w = .ok v' ∧
      SameTypes v c.world ∧ SameTypes v' c'.world := by
  have named' (d : TypeDraft) (hd : some d ∈ prelude.map some ++ doc.externals ++ types) : d.WellNamed :=
    named d (by simpa [order.mem_iff] using hd)
  have namedOwn (d : TypeDraft) (hd : some d ∈ doc.types) : d.WellNamed := named d (mem_append_right _ hd)
  obtain ⟨w₁, w₂, w₃, w₄, known, own, hknown, hown, runKnown, runOwn, same, -⟩ := ofDocument_passes load
  obtain ⟨w₁', w₂', w₃', w₄', known', own', hknown', hown', runKnown', runOwn', same', -⟩ := ofDocument_passes load'
  cases hknown.symm.trans hknown'
  obtain ⟨rfl, ready, index⟩ := ready_of_passes named TypeIndex.sound_empty rfl hknown hown runKnown
  obtain ⟨rfl, ready', index'⟩ := ready_of_passes named' TypeIndex.sound_empty rfl hknown hown' runKnown'
  have sound₁ : w₁.index.Sound :=
    (declareTypes_known (fun d hd => named d (mem_append_left _ hd)) TypeIndex.sound_empty hknown).1
  obtain ⟨world, lookup⟩ := sameTypes_of_perm namedOwn sound₁ order hown hown'
  -- Known types get the same supertypes in both.
  have again := foldlM_index lookup runKnown
  rw [world] at runKnown'
  obtain rfl : { w₃ with index := w₂'.index } = w₃' := Except.ok.inj (again.symm.trans runKnown')
  have back (k : String) : w₂'.index.byKey.lookup k = w₃.index.byKey.lookup k := by
    rw [index]
    exact (lookup k).symm
  have moved := foldlM_index (w := { w₃ with index := w₂'.index }) back runOwn'
  have index₄ : w₄'.index = w₂'.index := (ready'.declared runOwn').index
  have kept : SameTypes { w₄' with index := w₃.index } w₄' := ⟨fun k => index₄ ▸ (back k).symm, rfl, rfl⟩
  exact ⟨w₃, w₄, _, ready, runOwn, moved, same.sameTypes, kept.trans same'.sameTypes⟩

/-- **The order of declarations does not matter to settled compilations.** What a text means, what its supertypes are
and what it is assignable to are the same, in whatever order the types of the document are listed. -/
theorem supertypes_assignable_of_perm
    (named : ∀ d, some d ∈ prelude.map some ++ doc.externals ++ doc.types → d.WellNamed)
    (order : doc.types.Perm types) (load : ofDocument prelude file doc = .ok c)
    (load' : ofDocument prelude file { doc with types } = .ok c')
    (settled : Settled (doc.types.filterMap id) c.world) (settled' : Settled (types.filterMap id) c'.world)
    (params : List String) (space : String) {a b : String} {t t' u u' : Ty}
    (ha : TypeExpr.read (scopeIn c.world params space) a = .ok t)
    (ha' : TypeExpr.read (scopeIn c'.world params space) a = .ok t')
    (hb : TypeExpr.read (scopeIn c.world params space) b = .ok u)
    (hb' : TypeExpr.read (scopeIn c'.world params space) b = .ok u') :
    t = t' ∧ c.world.hierarchy.supertypes t = c'.world.hierarchy.supertypes t' ∧
      c.world.hierarchy.assignable t u = c'.world.hierarchy.assignable t' u' := by
  obtain ⟨w, v, v', ready, run, run', same, same'⟩ := runs_of_perm named order load load'
  have orders := order.filterMap id
  have world := (ready.declared run).world
  have world' := ((ready.perm orders).declared run').world
  have closes := ready.closes orders run run'
  have proper := (ready.declared run).proper
  have unique {text : String} {t t' : Ty} (ht : TypeExpr.read (scopeIn c.world params space) text = .ok t)
      (ht' : TypeExpr.read (scopeIn c'.world params space) text = .ok t') : t = t' ∧ t.Proper w.index := by
    rw [same.read_eq, world] at ht
    rw [same'.read_eq, world'] at ht'
    exact ⟨TypeExpr.read_unique ready.sound closes ht ht', TypeExpr.read_proper ready.sound closes ht⟩
  obtain ⟨rfl, ht⟩ := unique ha ha'
  obtain ⟨rfl, -⟩ := unique hb hb'
  have plain := Settled.samePlain ready orders run run' (settled.congr same.symm) (settled'.congr same'.symm)
  have size := ready.rows_length orders run run'
  rw [← same.hierarchy, ← same'.hierarchy]
  exact ⟨rfl, Hierarchy.supertypes_congr proper plain size ht, Hierarchy.assignable_congr proper plain size ht u⟩

/-- A document that lists its generic declarations first is settled. -/
theorem settled_of_load (named : ∀ d, some d ∈ prelude.map some ++ doc.externals ++ doc.types → d.WellNamed)
    (load : ofDocument prelude file doc = .ok c) (first : GenericsFirst (doc.types.filterMap id)) :
    Settled (doc.types.filterMap id) c.world := by
  obtain ⟨w, v, -, ready, run, -, same, -⟩ := runs_of_perm named (.refl _) load load
  exact (settled_of_genericsFirst ready run first).congr same

end Orders

/-! ## Two orders of three types -/

/-- What two texts mean in a document of the listed types, beside the library types. -/
def meanings (types : List TypeDraft) (a b : String) : Except Fault (Compilation × Ty × Ty) := do
  let c ← ofDocument Prelude.types "" { types := types.map some }
  let t ← TypeExpr.read (scopeIn c.world [] "") a
  let u ← TypeExpr.read (scopeIn c.world [] "") b
  pure (c, t, u)

def supertypesOf (types : List TypeDraft) (a b : String) : Option (List String × Bool) :=
  (meanings types a b).toOption.map fun (c, t, u) =>
    ((c.world.hierarchy.supertypes t).map Ty.key, c.world.hierarchy.assignable t u)

def genericClass : TypeDraft := { kind := "class", name := "N.G", typeParameters := ["T"], interfaces := ["I"] }

def derivedClass : TypeDraft := { kind := "class", name := "N.A", base := "G<int>" }

def plainInterface : TypeDraft := { kind := "interface", name := "N.I" }

theorem exists_meanings (types : List TypeDraft) (a b : String) (h : (supertypesOf types a b).isSome) :
    ∃ c t u, ofDocument Prelude.types "" { types := types.map some } = .ok c ∧
      TypeExpr.read (scopeIn c.world [] "") a = .ok t ∧ TypeExpr.read (scopeIn c.world [] "") b = .ok u := by
  cases run : meanings types a b with
  | error f =>
    rw [supertypesOf, run] at h
    cases h
  | ok found =>
    obtain ⟨c, load, run⟩ := bind_eq_ok.mp run
    obtain ⟨t, ht, run⟩ := bind_eq_ok.mp run
    obtain ⟨u, hu, -⟩ := bind_eq_ok.mp run
    exact ⟨c, t, u, load, ht, hu⟩

/-- The class and its interface behind the generic class, in both orders. -/
theorem supertypes_assignable_of_genericsFirst :
    ∃ c c' t t' u u',
      ofDocument Prelude.types "" { types := [genericClass, derivedClass, plainInterface].map some } = .ok c ∧
      ofDocument Prelude.types "" { types := [genericClass, plainInterface, derivedClass].map some } = .ok c' ∧
      TypeExpr.read (scopeIn c.world [] "") "N.A" = .ok t ∧ TypeExpr.read (scopeIn c'.world [] "") "N.A" = .ok t' ∧
      TypeExpr.read (scopeIn c.world [] "") "N.I" = .ok u ∧ TypeExpr.read (scopeIn c'.world [] "") "N.I" = .ok u' ∧
      t = t' ∧ c.world.hierarchy.supertypes t = c'.world.hierarchy.supertypes t' ∧
      c.world.hierarchy.assignable t u = c'.world.hierarchy.assignable t' u' := by
  obtain ⟨c, t, u, load, ha, hb⟩ :=
    exists_meanings [genericClass, derivedClass, plainInterface] "N.A" "N.I" (by decide +kernel)
  obtain ⟨c', t', u', load', ha', hb'⟩ :=
    exists_meanings [genericClass, plainInterface, derivedClass] "N.A" "N.I" (by decide +kernel)
  have named (types : List TypeDraft) (all : ∀ d ∈ Prelude.types ++ types, d.WellNamed) (d : TypeDraft)
      (hd : some d ∈ Prelude.types.map some ++ [] ++ types.map some) : d.WellNamed :=
    all d (by simpa using hd)
  have first := named [genericClass, derivedClass, plainInterface] (by decide +kernel)
  have second := named [genericClass, plainInterface, derivedClass] (by decide +kernel)
  have order : ([genericClass, derivedClass, plainInterface].map some).Perm
      ([genericClass, plainInterface, derivedClass].map some) := ((List.Perm.swap _ _ _).cons _).map some
  exact ⟨c, c', t, t', u, u', load, load', ha, ha', hb, hb',
    supertypes_assignable_of_perm first order load load' (settled_of_load first load (by decide +kernel))
      (settled_of_load second load' (by decide +kernel)) [] "" ha ha' hb hb'⟩

/-- **A class that is declared before its generic base** misses the interface that the base implements. -/
theorem supertypes_ne_of_perm :
    [derivedClass, plainInterface, genericClass].Perm [genericClass, derivedClass, plainInterface] ∧
      supertypesOf [derivedClass, plainInterface, genericClass] "N.A" "N.I" =
        some (["N.G<System.Int32>", "System.Object"], false) ∧
      supertypesOf [genericClass, derivedClass, plainInterface] "N.A" "N.I" =
        some (["N.G<System.Int32>", "System.Object", "N.I"], true) := by
  refine ⟨?_, by decide +kernel, by decide +kernel⟩
  change ([derivedClass, plainInterface] ++ [genericClass]).Perm ([genericClass] ++ [derivedClass, plainInterface])
  exact perm_append_comm

end Compilation

end Polyglot
