import Polyglot.Proofs.Declaration
import Polyglot.Proofs.Meaning

/-!
# Declaring supertypes

The second pass over the declarations gives each definition its supertypes: a declaration adds what its texts mean at that moment
to its own definition. So a run over the declarations of a document, whose definitions are all different, leaves each
definition with what its own declaration added.
-/

namespace Polyglot

open List

/-! ## Supertypes of a declaration -/

theorem Ty.isDecl_shape (k : DeclKind) (t : Ty) : t.shape.isDecl k = t.isDecl k := by
  cases t with
  | array e => rw [shape]; rfl
  | closed h args base interfaces => rw [shape]; rfl
  | _ => rfl

namespace Supers

/-- Supertypes with those of a declaration added: a base that is an interface is the first of the interfaces. -/
def extend (s : Supers) (base : Option Ty) (interfaces : List Ty) : Supers :=
  match base with
  | none => { s with interfaces := s.interfaces ++ interfaces }
  | some t =>
    if t.isDecl .interfaceDecl then { s with interfaces := s.interfaces ++ t :: interfaces }
    else { base := some t, interfaces := s.interfaces ++ interfaces }

theorem extend_none_nil (s : Supers) : s.extend none [] = s := by simp [extend]

theorem extend_extend_none (s : Supers) (base : Option Ty) (is js : List Ty) :
    (s.extend base is).extend none js = s.extend base (is ++ js) := by
  cases base with
  | none => simp [extend]
  | some t => by_cases h : t.isDecl .interfaceDecl <;> simp [extend, h]

theorem shape_extend (s : Supers) {a b : Option Ty} {is js : List Ty} (base : a.map Ty.shape = b.map Ty.shape)
    (interfaces : is.map Ty.shape = js.map Ty.shape) : (s.extend a is).shape = (s.extend b js).shape := by
  cases a with
  | none =>
    cases b with
    | none => simp [extend, shape, interfaces]
    | some u => cases base
  | some t =>
    cases b with
    | none => cases base
    | some u =>
      have same : t.shape = u.shape := Option.some.inj base
      have decl : t.isDecl .interfaceDecl = u.isDecl .interfaceDecl := by
        rw [← Ty.isDecl_shape, same, Ty.isDecl_shape]
      simp only [extend, decl]
      split <;> simp [shape, same, interfaces]

theorem Proper.extend {idx : TypeIndex} {s : Supers} {base : Option Ty} {interfaces : List Ty} (h : s.Proper idx)
    (hbase : ∀ t ∈ base, t.Proper idx) (hinterfaces : ∀ t ∈ interfaces, t.Proper idx) :
    (s.extend base interfaces).Proper idx := by
  have both : ∀ t ∈ s.interfaces ++ interfaces, t.Proper idx := by
    intro t ht
    rcases mem_append.mp ht with ht | ht
    · exact h.interfaces t ht
    · exact hinterfaces t ht
  cases base with
  | none => exact ⟨h.base, both⟩
  | some u =>
    rw [Supers.extend]
    split
    · refine ⟨h.base, fun t ht => ?_⟩
      rcases mem_append.mp ht with ht | ht
      · exact h.interfaces t ht
      · rcases mem_cons.mp ht with rfl | ht
        · exact hbase t rfl
        · exact hinterfaces t ht
    · exact ⟨hbase, both⟩

end Supers

/-- The types that the texts of a declaration mean: its base, if it has one, and its interfaces. -/
structure TypeDraft.Means (d : TypeDraft) (means : String → Ty → Prop) (base : Option Ty) (interfaces : List Ty) :
    Prop where
  base : if d.base = "" then base = none else ∃ t, base = some t ∧ means d.base t
  interfaces : Forall₂ means d.interfaces interfaces

namespace TypeDraft.Means

variable {d : TypeDraft} {means means' : String → Ty → Prop} {base base' : Option Ty} {interfaces interfaces' : List Ty}

theorem imp (weaker : ∀ text t, means text t → means' text t) (h : d.Means means base interfaces) :
    d.Means means' base interfaces where
  base := by
    have stated := h.base
    split at stated
    · next bare => rwa [if_pos bare]
    · next named =>
      obtain ⟨t, rfl, ht⟩ := stated
      rw [if_neg named]
      exact ⟨t, rfl, weaker _ _ ht⟩
  interfaces := h.interfaces.imp weaker

/-- What two meanings of each text have in common, the supertypes of the declaration have in common. -/
theorem map_eq {γ : Type} {f : Ty → γ} (same : ∀ text t u, means text t → means' text u → f t = f u)
    (h : d.Means means base interfaces) (h' : d.Means means' base' interfaces') :
    base.map f = base'.map f ∧ interfaces.map f = interfaces'.map f := by
  refine ⟨?_, map_eq_of_forall₂ h.interfaces h'.interfaces fun text _ t u => same text t u⟩
  have first := h.base
  have second := h'.base
  split at first
  · next bare =>
    rw [if_pos bare] at second
    rw [first, second]
  · next named =>
    rw [if_neg named] at second
    obtain ⟨t, rfl, ht⟩ := first
    obtain ⟨u, rfl, hu⟩ := second
    exact congrArg some (same _ t u ht hu)

end TypeDraft.Means

/-- The declaration names supertypes. -/
def TypeDraft.Inherits (d : TypeDraft) : Prop := d.base ≠ "" ∨ d.interfaces ≠ []

namespace Hierarchy

def keys (H : Hierarchy) : List String := H.rows.map (·.1)

theorem lookup_filter_ne {β : Type} {k k' : String} (ne : k' ≠ k) (rows : List (String × β)) :
    (rows.filter (·.1 ≠ k)).lookup k' = rows.lookup k' := by
  induction rows with
  | nil => rfl
  | cons row rows ih =>
    obtain ⟨l, v⟩ := row
    rw [filter_cons, lookup_cons_ite]
    split
    · rw [lookup_cons_ite, ih]
    · next same =>
      have same : l = k := by simpa using same
      rw [ih, if_neg (same ▸ ne)]

theorem supers_set (H : Hierarchy) (head : TypeHead) (s : Supers) (h : TypeHead) :
    (H.set head s).supers h = if h.key = head.key then s else H.supers h := by
  unfold supers set
  rw [lookup_cons_ite]
  split
  · rfl
  · next ne => rw [lookup_filter_ne ne]

theorem mem_keys_set (H : Hierarchy) (head : TypeHead) (s : Supers) (k : String) :
    k ∈ (H.set head s).keys ↔ k ∈ H.keys ∨ k = head.key := by
  simp only [keys, set, map_cons, mem_cons, mem_map, mem_filter, decide_eq_true_eq]
  constructor
  · rintro (rfl | ⟨row, ⟨mem, -⟩, rfl⟩)
    · exact .inr rfl
    · exact .inl ⟨row, mem, rfl⟩
  · rintro (⟨row, mem, rfl⟩ | rfl)
    · by_cases same : row.1 = head.key
      · exact .inl same
      · exact .inr ⟨row, ⟨mem, same⟩, rfl⟩
    · exact .inl rfl

variable {H : Hierarchy} {idx : TypeIndex}

theorem nodup_keys_set (nodup : H.keys.Nodup) (head : TypeHead) (s : Supers) : (H.set head s).keys.Nodup := by
  rw [keys, set, map_cons, nodup_cons]
  refine ⟨?_, nodup.sublist (filter_sublist.map _)⟩
  intro mem
  obtain ⟨row, hrow, same⟩ := mem_map.mp mem
  exact absurd same (by simpa using (mem_filter.mp hrow).2)

theorem supers_of_not_mem_keys {head : TypeHead} (h : head.key ∉ H.keys) : H.supers head = defaultSupers head := by
  have absent : H.rows.lookup head.key = none := by
    rw [Option.eq_none_iff_forall_not_mem]
    intro s hs
    exact h (mem_map.mpr ⟨_, mem_of_lookup hs, rfl⟩)
  rw [supers, absent, Option.getD_none]

/-- Supertypes that are declared for a key are those of every definition with it. -/
theorem supers_eq_of_mem_keys {h h' : TypeHead} (mem : h.key ∈ H.keys) (key : h.key = h'.key) : H.supers h = H.supers h' := by
  obtain ⟨row, hrow, same⟩ := mem_map.mp mem
  cases found : H.rows.lookup h.key with
  | some s => rw [supers, supers, ← key, found, Option.getD_some, Option.getD_some]
  | none =>
    have other := lookup_eq_none_iff.mp found row hrow
    simp [same] at other

theorem closes_self (proper : H.Proper idx) : Ty.Closes idx H.instantiate? H.instantiate? :=
  instantiateWithin_closes proper proper (fun _ _ _ => rfl) H.depth

theorem proper_empty (sound : idx.Sound) : ({} : Hierarchy).Proper idx := by
  intro h _
  change (defaultSupers h).Proper idx
  have sequence : idx.Knows Ty.enumerableHead := sound.builtin _ _ rfl
  have object : Ty.object.Proper idx := .atom rfl rfl
  unfold defaultSupers
  split
  · exact ⟨by simp, by simpa using .named sequence rfl⟩
  · split
    · exact ⟨by simpa using object, by simp⟩
    · exact ⟨by simpa using object, by simp⟩
    · exact ⟨by simp, by simp⟩

end Hierarchy

namespace Compilation

/-! ## One declaration -/

variable {w w' w'' : World} {head : TypeHead}

/-- What is known of supertypes at some moment between two worlds, while the definition is declared. -/
structure Passes (w w' : World) (head : TypeHead) (H : Hierarchy) : Prop where
  proper : H.Proper w.index
  other : ∀ h : TypeHead, h.key ≠ head.key → H.supers h = w.hierarchy.supers h
  nodup : w.hierarchy.keys.Nodup → H.keys.Nodup
  keys : H.keys ⊆ w'.hierarchy.keys

/-- What becomes of a world when supertypes are declared for one definition. -/
structure Extends (w w' : World) (head : TypeHead) (s : Supers) (changes : Prop) : Prop where
  world : w' = { w with hierarchy := w'.hierarchy }
  passes : Passes w w' head w'.hierarchy
  here : w'.hierarchy.supers head = s
  keys : ∀ k, k ∈ w'.hierarchy.keys ↔ k ∈ w.hierarchy.keys ∨ changes ∧ k = head.key

section Extends

variable {s s' : Supers} {p q : Prop}

theorem Extends.refl (proper : w.hierarchy.Proper w.index) (here : w.hierarchy.supers head = s) :
    Extends w w head s False where
  world := rfl
  passes := ⟨proper, fun _ _ => rfl, id, fun _ mem => mem⟩
  here := here
  keys := by simp

theorem Extends.set (proper : w.hierarchy.Proper w.index) (head : TypeHead) (hs : s.Proper w.index) :
    Extends w { w with hierarchy := w.hierarchy.set head s } head s True where
  world := rfl
  passes := by
    refine ⟨?_, ?_, fun nodup => Hierarchy.nodup_keys_set nodup head s, fun _ mem => mem⟩
    · intro h hk
      rw [Hierarchy.supers_set]
      split
      · exact hs
      · exact proper h hk
    · intro h ne
      rw [Hierarchy.supers_set, if_neg ne]
  here := by rw [Hierarchy.supers_set, if_pos rfl]
  keys := fun k => by rw [Hierarchy.mem_keys_set]; simp

theorem Extends.index (h : Extends w w' head s p) : w'.index = w.index := by rw [h.world]

theorem Extends.subset (h : Extends w w' head s p) : w.hierarchy.keys ⊆ w'.hierarchy.keys :=
  fun k mem => (h.keys k).mpr (.inl mem)

/-- What is known before a declaration, or at any moment of what is left of it. -/
theorem Passes.first (proper : w.hierarchy.Proper w.index) (subset : w.hierarchy.keys ⊆ w'.hierarchy.keys) :
    Passes w w' head w.hierarchy :=
  ⟨proper, fun _ _ => rfl, id, subset⟩

theorem Passes.later {H : Hierarchy} (first : Extends w w' head s p) (h : Passes w' w'' head H) :
    Passes w w'' head H where
  proper := first.index ▸ h.proper
  other := fun g ne => (h.other g ne).trans (first.passes.other g ne)
  nodup := fun nodup => h.nodup (first.passes.nodup nodup)
  keys := h.keys

theorem Extends.trans (first : Extends w w' head s p) (second : Extends w' w'' head s' q) :
    Extends w w'' head s' (p ∨ q) where
  world := by rw [second.world, first.world]
  passes := second.passes.later first
  here := second.here
  keys := fun k => by rw [second.keys, first.keys]; tauto

end Extends

def Reads (s : TypeExpr.Scope) (known : Hierarchy → Prop) (text : String) (t : Ty) : Prop :=
  ∃ H : Hierarchy, known H ∧ TypeExpr.read { s with hierarchy := H } text = .ok t

variable {e : Entry} {es : List Entry} {s : TypeExpr.Scope} {text : String} {t : Ty}

theorem Reads.imp {known known' : Hierarchy → Prop} (weaker : ∀ H, known H → known' H) (h : Reads s known text t) :
    Reads s known' text t := by
  obtain ⟨H, hH, run⟩ := h
  exact ⟨H, weaker H hH, run⟩

/-- Whatever supertypes are known, the text means types of one shape. -/
theorem Reads.shape_eq {known known' : Hierarchy → Prop} {u : Ty} (ht : Reads s known text t) (hu : Reads s known' text u) :
    t.shape = u.shape := by
  obtain ⟨H, -, ht⟩ := ht
  obtain ⟨H', -, hu⟩ := hu
  exact TypeExpr.shape_read ht hu

section Runs

variable (sound : w.index.Sound) (proper : w.hierarchy.Proper w.index)
include sound proper

/-- **What adding interfaces does**: they stand behind those that the definition has. -/
theorem addInterfaces_extends (known : w.index.Knows head) {texts : List String} (run : addInterfaces e head texts w = .ok w') :
    ∃ ts, Forall₂ (Reads (scopeOf w e.draft.typeParameters e.type) (Passes w w' head)) texts ts ∧
      Extends w w' head ((w.hierarchy.supers head).extend none ts) (texts ≠ []) := by
  induction texts generalizing w with
  | nil =>
    obtain rfl : w = w' := Except.ok.inj run
    exact ⟨[], .nil, by simpa using Extends.refl proper (Supers.extend_none_nil _).symm⟩
  | cons text texts ih =>
    obtain ⟨t, ht, run⟩ := bind_eq_ok.mp run
    have read := TypeExpr.readAt_eq_ok ht
    have ht : t.Proper w.index := TypeExpr.read_proper sound (Hierarchy.closes_self proper) read
    have added : ((w.hierarchy.supers head).extend none [t]).Proper w.index :=
      (proper head known).extend (by simp) (by simpa using ht)
    have first := Extends.set proper head added
    obtain ⟨ts, means, rest⟩ :=
      ih (w := { w with hierarchy := w.hierarchy.set head ((w.hierarchy.supers head).extend none [t]) })
        sound first.passes.proper known run
    have whole := first.trans rest
    refine ⟨t :: ts, .cons ⟨w.hierarchy, .first proper whole.subset, read⟩ ?_, ?_⟩
    · exact means.imp fun _ _ => Reads.imp fun _ => Passes.later first
    · rw [first.here, Supers.extend_extend_none] at whole
      simpa using whole

/-- **What declaring supertypes does** to the definition: they are added to those that it has. -/
theorem declareSupertypes_extends (type : e.type = .named head) (new : e.isBuiltin = false) (known : w.index.Knows head)
    (run : declareSupertypes w e = .ok w') : ∃ base interfaces,
      e.draft.Means (Reads (scopeOf w e.draft.typeParameters e.type) (Passes w w' head)) base interfaces ∧
      Extends w w' head ((w.hierarchy.supers head).extend base interfaces) e.draft.Inherits := by
  simp only [declareSupertypes, new, type] at run
  split at run
  · next bare =>
    obtain ⟨ts, means, adds⟩ := addInterfaces_extends sound proper known run
    refine ⟨none, ts, ⟨by rw [if_pos bare], means⟩, ?_⟩
    simpa [TypeDraft.Inherits, bare] using adds
  · next stated =>
    obtain ⟨t, ht, run⟩ := bind_eq_ok.mp run
    have read := TypeExpr.readAt_eq_ok ht
    have ht : t.Proper w.index := TypeExpr.read_proper sound (Hierarchy.closes_self proper) read
    have added : ((w.hierarchy.supers head).extend (some t) []).Proper w.index :=
      (proper head known).extend (by simpa using ht) (by simp)
    have first := Extends.set proper head added
    have row : (if t.isDecl .interfaceDecl then
          { w.hierarchy.supers head with interfaces := (w.hierarchy.supers head).interfaces ++ [t] }
        else { w.hierarchy.supers head with base := some t }) = (w.hierarchy.supers head).extend (some t) [] := by
      simp [Supers.extend]
    rw [row] at run
    obtain ⟨ts, means, rest⟩ := addInterfaces_extends
      (w := { w with hierarchy := w.hierarchy.set head ((w.hierarchy.supers head).extend (some t) []) })
      sound first.passes.proper known run
    have whole := first.trans rest
    refine ⟨some t, ts, ⟨?_, ?_⟩, ?_⟩
    · rw [if_neg stated]
      exact ⟨t, rfl, w.hierarchy, .first proper whole.subset, type ▸ read⟩
    · exact means.imp fun _ _ => Reads.imp fun _ => Passes.later first
    · rw [first.here, Supers.extend_extend_none] at whole
      simpa [TypeDraft.Inherits, stated] using whole

omit sound proper

/-! ## A run over declarations -/

/-- The entry declares the supertypes of the definition with the key. Built-in types keep theirs. -/
def Entry.Declares (e : Entry) (key : String) : Prop :=
  e.isBuiltin = false ∧ ∃ h, e.type = .named h ∧ key = h.key

/-- What becomes of a world when the supertypes of several entries are declared. -/
structure Declared (es : List Entry) (w w' : World) : Prop where
  world : w' = { w with hierarchy := w'.hierarchy }
  proper : w'.hierarchy.Proper w.index
  other : ∀ h : TypeHead, (∀ e ∈ es, ¬ e.Declares h.key) → w'.hierarchy.supers h = w.hierarchy.supers h
  nodup : w.hierarchy.keys.Nodup → w'.hierarchy.keys.Nodup
  keys : ∀ k, k ∈ w'.hierarchy.keys ↔ k ∈ w.hierarchy.keys ∨ ∃ e ∈ es, e.Declares k ∧ e.draft.Inherits

theorem Declared.index (h : Declared es w w') : w'.index = w.index := by rw [h.world]

theorem Declared.refl (proper : w.hierarchy.Proper w.index) : Declared [] w w where
  world := rfl
  proper := proper
  other := fun _ _ => rfl
  nodup := id
  keys := by simp

theorem Declared.trans {es' : List Entry} (first : Declared es w w') (second : Declared es' w' w'') :
    Declared (es ++ es') w w'' where
  world := by rw [second.world, first.world]
  proper := first.index ▸ second.proper
  other := by
    intro h none
    have before := first.other h fun e he => none e (mem_append_left _ he)
    have after := second.other h fun e he => none e (mem_append_right _ he)
    exact after.trans before
  nodup := fun nodup => second.nodup (first.nodup nodup)
  keys := by
    intro k
    rw [second.keys, first.keys, or_assoc]
    simp only [mem_append, or_and_right, exists_or]

include sound proper

/-- **One declaration** changes the supertypes of the definition that it is about. -/
theorem declareSupertypes_declared (known : ∀ h, e.type = .named h → w.index.Knows h) (run : declareSupertypes w e = .ok w') : Declared [e] w w' := by
  by_cases declares : ∃ k, e.Declares k
  · obtain ⟨_, new, head, type, rfl⟩ := declares
    obtain ⟨base, interfaces, -, adds⟩ := declareSupertypes_extends sound proper type new (known head type) run
    have key (k : String) : e.Declares k ↔ k = head.key := by
      simp [Entry.Declares, new, type]
    refine ⟨adds.world, adds.passes.proper, fun h other => ?_, adds.passes.nodup, fun k => ?_⟩
    · exact adds.passes.other h fun same => other e mem_cons_self ((key _).mpr same)
    · simp [adds.keys, key, and_comm]
  · have skips : declareSupertypes w e = .ok w := by
      unfold declareSupertypes
      split
      · next head new type => exact absurd ⟨head.key, new, head, type, rfl⟩ declares
      · rfl
    obtain rfl : w = w' := Except.ok.inj (skips.symm.trans run)
    refine ⟨rfl, proper, fun _ _ => rfl, id, fun k => ?_⟩
    simp only [mem_singleton, exists_eq_left]
    exact ⟨.inl, fun h => h.elim id fun h => absurd ⟨k, h.1⟩ declares⟩

/-- **A run over declarations** changes the supertypes of the definitions that they are about. -/
theorem foldlM_declared (known : ∀ e ∈ es, ∀ h, e.type = .named h → w.index.Knows h)
    (run : es.foldlM declareSupertypes w = .ok w') : Declared es w w' := by
  induction es generalizing w with
  | nil =>
    obtain rfl : w = w' := Except.ok.inj run
    exact .refl proper
  | cons e es ih =>
    obtain ⟨w₁, here, run⟩ := bind_eq_ok.mp run
    have first := declareSupertypes_declared sound proper (known e mem_cons_self) here
    refine first.trans (ih (first.index ▸ sound) (first.index ▸ first.proper) ?_ run)
    exact fun e he h type => first.index ▸ known e (mem_cons_of_mem _ he) h type

/-- **One declaration of a run.** What its texts mean is read at some moment of it, and is what the definition has
in the end when no other declaration of the run is about it. -/
theorem foldlM_at {before after : List Entry} (type : e.type = .named head) (new : e.isBuiltin = false)
    (known : ∀ e' ∈ before ++ e :: after, ∀ h, e'.type = .named h → w.index.Knows h)
    (only : ∀ e' ∈ before ++ after, ¬ e'.Declares head.key) (run : (before ++ e :: after).foldlM declareSupertypes w = .ok w') :
    ∃ u u' base interfaces, Declared before w u ∧ Declared after u' w' ∧
      e.draft.Means (Reads (scopeOf w e.draft.typeParameters e.type) (Passes u u' head)) base interfaces ∧
      Extends u u' head ((u.hierarchy.supers head).extend base interfaces) e.draft.Inherits ∧
      w'.hierarchy.supers head = (w.hierarchy.supers head).extend base interfaces := by
  rw [foldlM_append] at run
  obtain ⟨u, runBefore, run⟩ := bind_eq_ok.mp run
  obtain ⟨u', here, runAfter⟩ := bind_eq_ok.mp run
  have first := foldlM_declared sound proper (fun e' he' => known e' (mem_append_left _ he')) runBefore
  have knownHere : u.index.Knows head := first.index ▸ known e (by simp) head type
  obtain ⟨base, interfaces, means, adds⟩ :=
    declareSupertypes_extends (first.index ▸ sound) (first.index ▸ first.proper) type new knownHere here
  have second := foldlM_declared (adds.index ▸ first.index ▸ sound) (adds.index ▸ adds.passes.proper)
    (fun e' he' h type' => adds.index ▸ first.index ▸ known e' (by simp [he']) h type') runAfter
  have scope : scopeOf u e.draft.typeParameters e.type =
      { scopeOf w e.draft.typeParameters e.type with hierarchy := u.hierarchy } := by
    rw [first.world]
    rfl
  rw [scope] at means
  refine ⟨u, u', base, interfaces, first, second, means, adds, ?_⟩
  rw [second.other head fun e' he' => only e' (mem_append_right _ he'), adds.here,
    first.other head fun e' he' => only e' (mem_append_left _ he')]

end Runs

/-! ## Two indexes with the same definitions -/

section Index

variable {idx : TypeIndex}

variable {e : Entry}

theorem addInterfaces_index {texts : List String} (same : ∀ k, w.index.byKey.lookup k = idx.byKey.lookup k)
    (run : addInterfaces e head texts w = .ok w') :
    addInterfaces e head texts { w with index := idx } = .ok { w' with index := idx } := by
  induction texts generalizing w with
  | nil =>
    obtain rfl : w = w' := Except.ok.inj run
    rfl
  | cons text texts ih =>
    obtain ⟨t, ht, run⟩ := bind_eq_ok.mp run
    have ht' := (TypeExpr.readAt_index (s := scopeOf w e.draft.typeParameters e.type) same _ _).trans ht
    exact bind_eq_ok.mpr ⟨t, ht', ih (w := { w with hierarchy := _ }) same run⟩

theorem declareSupertypes_index (same : ∀ k, w.index.byKey.lookup k = idx.byKey.lookup k) (run : declareSupertypes w e = .ok w') :
    declareSupertypes { w with index := idx } e = .ok { w' with index := idx } := by
  unfold declareSupertypes at run ⊢
  split at run
  · split at run
    · next bare =>
      rw [if_pos bare]
      exact addInterfaces_index same run
    · next stated =>
      rw [if_neg stated]
      obtain ⟨t, ht, run⟩ := bind_eq_ok.mp run
      have ht' := (TypeExpr.readAt_index (s := scopeOf w e.draft.typeParameters e.type) same _ _).trans ht
      exact bind_eq_ok.mpr ⟨t, ht', addInterfaces_index (w := { w with hierarchy := _ }) same run⟩
  · obtain rfl : w = w' := Except.ok.inj run
    rfl

/-- **A run depends on the definitions of the index only**, not on the order in which they were entered. -/
theorem foldlM_index {es : List Entry} (same : ∀ k, w.index.byKey.lookup k = idx.byKey.lookup k)
    (run : es.foldlM declareSupertypes w = .ok w') :
    es.foldlM declareSupertypes { w with index := idx } = .ok { w' with index := idx } := by
  induction es generalizing w with
  | nil =>
    obtain rfl : w = w' := Except.ok.inj run
    rfl
  | cons e es ih =>
    obtain ⟨w₁, here, run⟩ := bind_eq_ok.mp run
    have kept : w₁ = { w₁ with index := w.index } :=
      Except.ok.inj (here.symm.trans (declareSupertypes_index (fun _ => rfl) here))
    exact bind_eq_ok.mpr ⟨_, declareSupertypes_index same here, ih (by rwa [kept]) run⟩

end Index

end Compilation

end Polyglot
