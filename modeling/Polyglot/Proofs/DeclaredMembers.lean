import Polyglot.Declare.Rust
import Polyglot.Proofs.Passes
import Polyglot.Proofs.Resolving

/-!
# The members of a declared type

What loading enters for a type are its values, its members, and the constructor that it gets when it has none, in order. No
other type enters anything under its key. So the suffix that tells overloads apart is known: it counts the members of the same
kind and name that stand before.
-/

namespace Polyglot

open List

def Ty.valueSymbol (t : Ty) (name : String) : Symbol :=
  { kind := .enumValue, name, container := some t, type := some t, access := .public, isStatic := true }

/-- What is entered for a type without a constructor. -/
def Ty.constructorSymbol (t : Ty) : Symbol :=
  { kind := .constructor, name := ".ctor", container := some t, access := .public }

theorem World.declared_addMember (w : World) (key : String) (s : Symbol) (k : String) :
    (w.addMember key s).declared k = if k = key then w.declared k ++ [s] else w.declared k := by
  unfold addMember declared
  rw [lookup_assocSet]
  split
  · next same => rw [same, Option.getD_some]
  · rfl

namespace Compilation

variable {w w' w'' : World}

/-! ## Entering members -/

/-- Symbols are entered under a key, behind those that are there, and nothing under any other. -/
def Enters (key : String) (symbols : List Symbol) (w w' : World) : Prop :=
  ∀ k, w'.declared k = if k = key then w.declared k ++ symbols else w.declared k

namespace Enters

variable {key : String} {some more : List Symbol}

theorem none (same : w'.members = w.members) : Enters key [] w w' := by
  intro k
  rw [append_nil, ite_self, World.declared, World.declared, same]

theorem trans (first : Enters key some w w') (second : Enters key more w' w'') : Enters key (some ++ more) w w'' := by
  intro k
  rw [second k, first k]
  split
  · rw [append_assoc]
  · rfl

theorem add (w : World) (key : String) (s : Symbol) : Enters key [s] w (w.addMember key s) :=
  w.declared_addMember key s

theorem here (enters : Enters key some w w') : w'.declared key = w.declared key ++ some := by
  rw [enters key, if_pos rfl]

theorem other (enters : Enters key some w w') {k : String} (ne : k ≠ key) : w'.declared k = w.declared k := by
  rw [enters k, if_neg ne]

end Enters

variable {d d' : TypeDecl} {ds : List (Entry × TypeDecl)} {e : Entry} {es : List Entry} {idx : TypeIndex} {isExternal : Bool}
  {k : String} {ms : List Member}

theorem declareMemberList_enters {ds : List (Option MemberDraft)}
    (run : declareMemberList e ds w = .ok (w', ms)) :
    Enters e.type.definitionKey (ms.map (·.symbol)) w w' ∧
      (∀ m ∈ ms, IsEntered w.index e.type e.draft.typeParameters m.kind.symbolKind m.symbol) ∧
      ∃ drafts : List MemberDraft, ds = drafts.map some ∧ drafts.length = ms.length := by
  obtain ⟨drafts, rfl, steps⟩ := declareMemberList_threaded run
  have length := (steps.forall₂ (R := fun _ _ => True) fun _ => trivial).length_eq
  refine ⟨?_, ?_, drafts, rfl, length⟩ <;> clear run length
  · induction steps with
    | nil w => exact .none rfl
    | cons here _ ih =>
      obtain ⟨-, w₁, here, rfl⟩ := here
      exact ((Enters.none (declareSymbol_spec here).1.members).trans (.add w₁ _ _)).trans ih
  · induction steps with
    | nil w => simp
    | @cons w _ _ _ m _ _ here _ ih =>
      obtain ⟨-, w₁, here, rfl⟩ := here
      obtain ⟨same, isEntered⟩ := declareSymbol_spec here
      have index : (w₁.addMember e.type.definitionKey m.symbol).index = w.index := same.index
      rw [index] at ih
      exact forall_mem_cons.mpr ⟨isEntered, ih⟩

theorem declareValues_enters (t : Ty) (values : List EnumValueDraft) (w : World) :
    Enters t.definitionKey (values.map (t.valueSymbol ·.name)) w (declareValues t values w) := by
  induction values generalizing w with
  | nil => exact .none rfl
  | cons v values ih => exact (Enters.add w _ _).trans (ih _)

def IsRoster (t : Ty) (d : TypeDecl) (symbols : List Symbol) : Prop :=
  ∃ extra, (extra = [] ∨ extra = [t.constructorSymbol]) ∧
    symbols = d.values.map (t.valueSymbol ·.name) ++ d.members.map (·.symbol) ++ extra

theorem declareMembers_enters (declared : declareMembers w e = .ok (w', d)) :
    (∃ symbols, IsRoster e.type d symbols ∧ Enters e.type.definitionKey symbols w w') ∧
      (∀ m ∈ d.members, IsEntered w'.index e.type e.draft.typeParameters m.kind.symbolKind m.symbol) ∧
      ∃ drafts : List MemberDraft, e.draft.members = drafts.map some ∧ drafts.length = d.members.length := by
  have run := declared
  unfold declareMembers at run
  extract_lets t key draft symbol entered valued at run
  obtain ⟨⟨w₁, invoke⟩, hinvoke, run⟩ := bind_eq_ok.mp run
  obtain ⟨⟨w₂, members⟩, hmembers, run⟩ := bind_eq_ok.mp run
  obtain ⟨enters, areEntered, drafts, listed, length⟩ := declareMemberList_enters hmembers
  have values : Enters key _ w valued :=
    Enters.trans (show Enters key [] w entered from .none rfl) (declareValues_enters t draft.values entered)
  have before := (values.trans (.none (declareInvoke_untouched hinvoke).members)).trans enters
  have index : w₁.index = w.index :=
    ((KeepsTypes.trans (show KeepsTypes w entered from ⟨rfl, rfl, rfl⟩) (keepsTypes_declareValues t draft.values entered)).trans
      (declareInvoke_untouched hinvoke).toKeepsTypes).index
  rw [index, ← (declareMembers_keepsTypes declared).index] at areEntered
  rw [append_nil] at before
  cases run
  refine ⟨?_, areEntered, drafts, listed, length⟩
  have symbols : (draft.values.map fun v => (⟨v.name, if v.value = "" then none else some v.value⟩ : EnumMember)).map
      (t.valueSymbol ·.name) = draft.values.map (t.valueSymbol ·.name) := by
    rw [map_map]
    rfl
  split
  · refine ⟨_, ⟨_, .inr rfl, rfl⟩, ?_⟩
    rw [symbols]
    exact before.trans (.add w₂ _ _)
  · refine ⟨_, ⟨_, .inl rfl, rfl⟩, ?_⟩
    rw [symbols, append_nil]
    exact before

theorem EntersAll.other (steps : EntersAll w es ds w') (absent : ∀ e ∈ es, k ≠ e.type.definitionKey) :
    w'.declared k = w.declared k := by
  induction steps with
  | nil w => rfl
  | cons here _ ih =>
    obtain ⟨-, here⟩ := here
    obtain ⟨ne, others⟩ := forall_mem_cons.mp absent
    obtain ⟨⟨symbols, -, enters⟩, -⟩ := declareMembers_enters here
    exact (ih others).trans (enters.other ne)

/-- A declaration with its symbols entered in a world. -/
structure IsListed (w : World) (t : Ty) (params : List String) (d : TypeDecl) : Prop where
  roster : IsRoster t d (w.declared t.definitionKey)
  entered : ∀ m ∈ d.members, IsEntered w.index t params m.kind.symbolKind m.symbol

/-- **Each type has what it entered**, when no two types share a key. -/
theorem EntersAll.listed (steps : EntersAll w es ds w') (distinct : (es.map (·.type.definitionKey)).Nodup)
    (blank : ∀ e ∈ es, w.declared e.type.definitionKey = []) :
    ∀ x ∈ ds, x.1 ∈ es ∧ x.2.head = x.1.head ∧ IsListed w' x.1.type x.1.draft.typeParameters x.2 ∧
      ∃ drafts : List MemberDraft, x.1.draft.members = drafts.map some ∧ drafts.length = x.2.members.length := by
  induction steps with
  | nil w => simp
  | @cons w w₁ w' e x es ds here rest ih =>
    obtain ⟨rfl, here⟩ := here
    obtain ⟨fresh, later⟩ := nodup_cons.mp distinct
    obtain ⟨first, others⟩ := forall_mem_cons.mp blank
    obtain ⟨⟨symbols, roster, enters⟩, entered, drafts⟩ := declareMembers_enters here
    have apart : ∀ e' ∈ es, x.1.type.definitionKey ≠ e'.type.definitionKey := by
      intro e' he' same
      exact fresh (mem_map.mpr ⟨e', he', same.symm⟩)
    have blank₁ : ∀ e' ∈ es, w₁.declared e'.type.definitionKey = [] := by
      intro e' he'
      rw [enters.other (apart e' he').symm, others e' he']
    have kept : w'.declared x.1.type.definitionKey = symbols := by
      rw [EntersAll.other rest apart, enters.here, first, nil_append]
    rw [← (EntersAll.keepsTypes rest).index] at entered
    refine forall_mem_cons.mpr ⟨⟨mem_cons_self, declareMembers_head here, ⟨kept ▸ roster, entered⟩, drafts⟩, fun x hx => ?_⟩
    obtain ⟨mem, found⟩ := ih later blank₁ x hx
    exact ⟨mem_cons_of_mem _ mem, found⟩

/-! ## Bodies -/

/-- Resolving a member leaves its kind and its symbol alone. -/
theorem resolveMember_keeps (d : MemberDraft) (m : Member) :
    Resolves (fun m' => m'.kind = m.kind ∧ m'.symbol = m.symbol) (resolveMember d m) := by
  refine .nested (.behind fun _ => ?_)
  cases m.kind with
  | field | event => exact .behind fun _ => .pure ⟨rfl, rfl⟩
  | property => exact .behind fun _ => .behind fun _ => .behind fun _ => .pure ⟨rfl, rfl⟩
  | constructor =>
    refine .behind fun _ => ?_
    cases d.chain with
    | none => exact .behind fun _ => .behind fun _ => .pure ⟨rfl, rfl⟩
    | some chain => exact .behind fun _ => .behind fun _ => .behind fun _ => .pure ⟨rfl, rfl⟩
  | method | operator => exact .behind fun _ => .pure ⟨rfl, rfl⟩

/-- Two declarations that differ in the bodies of their members only. -/
structure SameFace (d d' : TypeDecl) : Prop where
  head : d'.head = d.head
  values : d'.values = d.values
  members : Forall₂ (fun m m' : Member => m'.kind = m.kind ∧ m'.symbol = m.symbol) d.members d'.members

theorem resolveMembers_keeps {drafts : List MemberDraft} {ms' : List Member} (length : drafts.length = ms.length)
    (run : resolveMembers w e (drafts.map some) ms = .ok ms') :
    Forall₂ (fun m m' : Member => m'.kind = m.kind ∧ m'.symbol = m.symbol) ms ms' := by
  induction drafts generalizing ms ms' with
  | nil =>
    cases length_eq_zero_iff.mp length.symm
    cases run
    exact .nil
  | cons d drafts ih =>
    cases ms with
    | nil => cases length
    | cons m ms =>
      obtain ⟨⟨m', _⟩, here, run⟩ := bind_eq_ok.mp run
      obtain ⟨rest', rest, run⟩ := bind_eq_ok.mp run
      cases run
      exact .cons (resolveMember_keeps d m _ _ _ _ here) (ih (Nat.succ.inj length) rest)

theorem resolveBodies_faces {types : List TypeDecl}
    (drafted : ∀ x ∈ ds, ∃ drafts : List MemberDraft, x.1.draft.members = drafts.map some ∧ drafts.length = x.2.members.length)
    (run : resolveBodies w ds = .ok types) : Forall₂ (fun x d => SameFace x.2 d) ds types := by
  refine ((forall₂_and_left ds types).mpr ⟨drafted, resolveBodies_eq_ok run⟩).imp ?_
  rintro x _ ⟨⟨drafts, listed, length⟩, members, here, rfl⟩
  rw [listed] at here
  exact ⟨rfl, rfl, resolveMembers_keeps length here⟩

theorem SameFace.symbols (same : SameFace d d') : d'.members.map (·.symbol) = d.members.map (·.symbol) := by
  exact (map_eq_map_of_forall₂ (same.members.imp fun _ _ here => here.2.symm)).symm

theorem IsListed.of_sameFace {t : Ty} {params : List String} (listed : IsListed w t params d)
    (same : SameFace d d') : IsListed w t params d' where
  roster := by
    rw [IsRoster, same.values, same.symbols]
    exact listed.roster
  entered := by
    intro m' hm'
    obtain ⟨m, hm, kind, symbol⟩ := exists_mem_of_forall₂ same.members hm'
    rw [kind, symbol]
    exact listed.entered m hm

/-! ## Loading -/

def Keyed (idx : TypeIndex) : Prop := ∀ k t, idx.byKey.lookup k = some t → t.definitionKey = k

theorem keyed_empty : Keyed {} := by
  have all : ∀ row ∈ Ty.builtins, row.2.definitionKey = row.1 := by decide
  intro k t found
  exact all (k, t) (mem_of_lookup found)

theorem Keyed.add (keyed : Keyed idx) (h : TypeHead) : Keyed (idx.add h) := by
  intro k t found
  rw [TypeIndex.lookup_add] at found
  split at found
  · next same =>
    cases found
    exact same.symm
  · exact keyed k t found

theorem lookup_add_ne_none (h : TypeHead) (known : idx.byKey.lookup k ≠ none) : (idx.add h).byKey.lookup k ≠ none := by
  rw [TypeIndex.lookup_add]
  split
  · exact Option.some_ne_none _
  · exact known

/-- Types are entered, and no members. -/
structure EntersTypes (w w' : World) : Prop where
  keyed : Keyed w'.index
  members : w'.members = w.members
  keeps : ∀ k, w.index.byKey.lookup k ≠ none → w'.index.byKey.lookup k ≠ none

theorem declareType_enters {d : TypeDraft} (keyed : Keyed w.index) (run : declareType w isExternal d = .ok (w', e)) :
    EntersTypes w w' ∧ w'.index.byKey.lookup e.type.definitionKey ≠ none := by
  rcases declareType_eq_ok run with ⟨t, found, -, rfl, rfl⟩ | ⟨-, rfl, rfl⟩
  · refine ⟨⟨keyed, rfl, fun _ known => known⟩, ?_⟩
    rw [keyed _ t found]
    exact Option.ne_none_iff_exists'.mpr ⟨t, found⟩
  · refine ⟨⟨keyed.add _, rfl, fun k known => lookup_add_ne_none _ known⟩, ?_⟩
    exact Option.ne_none_iff_exists'.mpr ⟨_, TypeIndex.knows_add _ _⟩

/-- The types that are entered, or found, are all in the index afterwards. -/
theorem declareTypes_enters {types : List (Option TypeDraft)} (keyed : Keyed w.index)
    (run : declareTypes isExternal types w = .ok (w', es)) :
    EntersTypes w w' ∧ ∀ e ∈ es, w'.index.byKey.lookup e.type.definitionKey ≠ none := by
  obtain ⟨drafts, -, steps⟩ := declareTypes_threaded run
  clear run
  induction steps with
  | nil w => exact ⟨⟨keyed, rfl, fun _ known => known⟩, by simp⟩
  | cons here _ ih =>
    obtain ⟨first, found⟩ := declareType_enters keyed here
    obtain ⟨later, others⟩ := ih first.keyed
    refine ⟨⟨later.keyed, later.members.trans first.members, fun k known => later.keeps k (first.keeps k known)⟩, ?_⟩
    exact forall_mem_cons.mpr ⟨later.keeps _ found, others⟩

/-- **The members of a declared type** are what the world has under its key. -/
theorem listed_of_load {prelude : List TypeDraft} {file : String} {doc : Document} {c : Compilation}
    (named : ∀ d, some d ∈ doc.types → d.WellNamed) (load : ofDocument prelude file doc = .ok c) (hd : d ∈ c.types) :
    IsListed c.world d.type d.head.params d := by
  obtain ⟨w₁, w₂, w₃, w₄, known, own, _, own', hknown, hown, supertypes, members, members', bodies⟩ := ofDocument_eq_ok load
  obtain ⟨first, found⟩ := declareTypes_enters keyed_empty hknown
  obtain ⟨later, -⟩ := declareTypes_enters first.keyed hown
  obtain ⟨drafts, -, rfl, distinct, new, -⟩ := declareTypes_own named hown
  have none : w₃.members = [] := by
    rw [foldlM_shape supertypes]
    exact later.members.trans first.members
  have keys : (drafts.map ownEntry).map (·.type.definitionKey) = drafts.map (·.head.key) := by
    rw [map_map]
    rfl
  have blank : ∀ e ∈ drafts.map ownEntry, w₄.declared e.type.definitionKey = [] := by
    intro e he
    obtain ⟨draft, hdraft, rfl⟩ := mem_map.mp he
    change w₄.declared draft.head.key = []
    rw [members.other fun e he same => found e he (same ▸ new draft hdraft), World.declared, none]
    rfl
  have listed := members'.listed (keys ▸ distinct) blank
  have faces := resolveBodies_faces (fun x hx => (listed x hx).2.2.2) bodies
  obtain ⟨⟨e, d'⟩, hx, same⟩ := exists_mem_of_forall₂ faces hd
  obtain ⟨mem, head, isListed, -⟩ := listed _ hx
  obtain ⟨draft, -, rfl⟩ := mem_map.mp mem
  have heads : d.head = draft.head := same.head.trans head
  rw [TypeDecl.type, heads]
  exact isListed.of_sameFace same

end Compilation

/-! ## Overloads -/

/-- The suffix behind a number of overloads. -/
def overloadMark (before : Nat) : String := if before = 0 then "" else "_" ++ Text.decimal before

theorem overloadMark_injective {m n : Nat} (h : overloadMark m = overloadMark n) : m = n := by
  unfold overloadMark at h
  split at h <;> split at h
  · omega
  · simp at h
  · simp at h
  · exact Text.decimal_injective ((String.append_right_inj "_").mp h)

def isOverload (kind : SymbolKind) (name : String) (s : Symbol) : Bool := s.kind = kind && s.name = name

variable {s : Symbol} {front symbols : List Symbol}

theorem overloadSuffixIn_split (absent : ∀ x ∈ front, x.key ≠ s.key) (rest : List Symbol)
    (kind : SymbolKind) (name : String) (n : Nat) :
    overloadSuffixIn s.key kind name n (front ++ s :: rest) = overloadMark (n + front.countP (isOverload kind name)) := by
  induction front generalizing n with
  | nil =>
    rw [nil_append, overloadSuffixIn, if_pos rfl]
    rfl
  | cons x front ih =>
    obtain ⟨other, others⟩ := forall_mem_cons.mp absent
    rw [cons_append, overloadSuffixIn, if_neg other, ih others, countP_cons, isOverload]
    congr 1
    split <;> omega

theorem overloadSuffixIn_eq_empty {key : String} {kind : SymbolKind} {name : String} {extra : List Symbol}
    (none : ∀ x ∈ symbols, isOverload kind name x = false) (last : extra = [] ∨ ∃ s, s.key = key ∧ extra = [s]) :
    overloadSuffixIn key kind name 0 (symbols ++ extra) = "" := by
  induction symbols with
  | nil =>
    rcases last with rfl | ⟨s, same, rfl⟩
    · rfl
    · rw [nil_append, overloadSuffixIn, if_pos same]
      rfl
  | cons x symbols ih =>
    obtain ⟨other, others⟩ := forall_mem_cons.mp none
    rw [cons_append, overloadSuffixIn]
    split
    · rfl
    · rw [isOverload] at other
      rw [other]
      exact ih others

theorem map_overloadSuffixIn {rest : List Symbol} (distinct : ((front ++ rest).map (·.key)).Nodup)
    (extra : List Symbol) (kind : SymbolKind) (name : String) :
    (rest.filter (isOverload kind name)).map (fun s => overloadSuffixIn s.key kind name 0 (front ++ rest ++ extra)) =
      (range' (front.countP (isOverload kind name)) (rest.countP (isOverload kind name))).map overloadMark := by
  induction rest generalizing front with
  | nil => rfl
  | cons s rest ih =>
    have again := @ih (front ++ [s])
    rw [append_assoc, countP_append, singleton_append] at again
    have absent : ∀ x ∈ front, x.key ≠ s.key := by
      rw [map_append] at distinct
      intro x hx same
      exact (nodup_append.mp distinct).2.2 _ (mem_map_of_mem hx) _ mem_cons_self same
    have here := overloadSuffixIn_split absent (rest ++ extra) kind name 0
    rw [← cons_append, ← append_assoc, Nat.zero_add] at here
    by_cases one : isOverload kind name s
    · rw [filter_cons_of_pos one, countP_cons_of_pos one, map_cons, here, range'_succ, map_cons, again distinct,
        countP_singleton, if_pos one]
    · rw [filter_cons_of_neg one, countP_cons_of_neg one, again distinct, countP_singleton, if_neg one, Nat.add_zero]

/-- **Suffixes tell overloads apart**: of two symbols with the same kind and name the later one counts the earlier one. -/
theorem pairwise_overloadSuffixIn (distinct : (symbols.map (·.key)).Nodup) (extra : List Symbol) :
    symbols.Pairwise fun s t => s.kind = t.kind → s.name = t.name →
      overloadSuffixIn s.key s.kind s.name 0 (symbols ++ extra) ≠ overloadSuffixIn t.key t.kind t.name 0 (symbols ++ extra) := by
  refine pairwise_iff_forall_sublist.mpr fun {s t} both kind name => ?_
  have marks := @map_overloadSuffixIn [] symbols distinct extra s.kind s.name
  have apart : (_ : List String).Nodup := marks ▸ (nodup_range' ..).map fun _ _ => overloadMark_injective
  have pair := both.filter (isOverload s.kind s.name)
  rw [filter_cons_of_pos (by simp [isOverload]), filter_cons_of_pos (by simp [isOverload, kind, name]), filter_nil] at pair
  rw [← kind, ← name]
  simpa using apart.sublist (pair.map _)

/-- The members of one name and kind, as they are declared. -/
def World.overloads (w : World) (key : String) (kind : SymbolKind) (name : String) : List Symbol :=
  (w.declared key).filter (isOverload kind name)

theorem overloadSuffix_eq {w : World} {key : String} (inside : s.container.map Ty.definitionKey = some key) :
    w.overloadSuffix s = overloadSuffixIn s.key s.kind s.name 0 (w.declared key) := by
  obtain ⟨t, container, rfl⟩ := Option.map_eq_some_iff.mp inside
  rw [World.overloadSuffix, container]

/-- **Overloads are numbered**: of the members of a container with one kind and name, the first has no suffix and each further one
the number of those before it, so that no two have the same. What has the key of one of them has its suffix. -/
theorem overload_suffixes_numbered (w : World) {key : String} (distinct : ((w.declared key).map (·.key)).Nodup)
    (inside : ∀ s ∈ w.declared key, s.container.map Ty.definitionKey = some key) (kind : SymbolKind) (name : String) :
    (∀ j s, (w.overloads key kind name)[j]? = some s →
      w.overloadSuffix s = if j = 0 then "" else "_" ++ Text.decimal j) ∧
    ((w.overloads key kind name).map w.overloadSuffix).Nodup ∧
    ∀ s ∈ w.overloads key kind name, ∀ s' : Symbol, s'.container.map Ty.definitionKey = some key → s'.kind = kind →
      s'.name = name → s'.key = s.key → w.overloadSuffix s' = w.overloadSuffix s := by
  have suffix (s) (mem : s ∈ w.overloads key kind name) :
      w.overloadSuffix s = overloadSuffixIn s.key kind name 0 (w.declared key) := by
    obtain ⟨mem, one⟩ := mem_filter.mp mem
    rw [isOverload, Bool.and_eq_true, decide_eq_true_eq, decide_eq_true_eq] at one
    rw [overloadSuffix_eq (inside s mem), one.1, one.2]
  have marks : (w.overloads key kind name).map w.overloadSuffix =
      (range' 0 ((w.declared key).countP (isOverload kind name))).map overloadMark := by
    have listed := @map_overloadSuffixIn [] _ distinct [] kind name
    rw [append_nil, nil_append] at listed
    exact (map_congr_left suffix).trans listed
  refine ⟨fun j s found => ?_, marks ▸ (nodup_range' ..).map fun _ _ => overloadMark_injective, ?_⟩
  · have mark := congrArg (·[j]?) marks
    simp only [getElem?_map, found, Option.map_some] at mark
    obtain ⟨i, counted, same⟩ := Option.map_eq_some_iff.mp mark.symm
    obtain ⟨_, rfl⟩ := List.getElem?_eq_some_iff.mp counted
    rw [← same, getElem_range', Nat.zero_add, Nat.one_mul, overloadMark]
  · rintro s mem s' container rfl rfl same
    rw [overloadSuffix_eq container, same, suffix s mem]

/-- Two methods of one name, between them a field. -/
def twoMethods : World :=
  let c := some (Ty.named ⟨.classDecl, "N", "C", [], ""⟩)
  { members := [("N.C", [{ kind := .method, name := "f", container := c }, { kind := .field, name := "x", container := c },
      { kind := .method, name := "f", container := c, parameters := [{ name := "n", type := .int }] }])] }

theorem overload_suffixes_twoMethods :
    ((twoMethods.declared "N.C").map (·.key)).Nodup ∧
    (∀ s ∈ twoMethods.declared "N.C", s.container.map Ty.definitionKey = some "N.C") ∧
    ((twoMethods.overloads "N.C" .method "f").map twoMethods.overloadSuffix).Nodup := by
  have distinct : ((twoMethods.declared "N.C").map (·.key)).Nodup := by decide
  have inside : ∀ s ∈ twoMethods.declared "N.C", s.container.map Ty.definitionKey = some "N.C" := by decide
  exact ⟨distinct, inside, (overload_suffixes_numbered twoMethods distinct inside .method "f").2.1⟩

theorem exists_overloadMark (w : World) (s : Symbol) : ∃ n, w.overloadSuffix s = overloadMark n := by
  unfold World.overloadSuffix
  cases s.container with
  | none => exact ⟨0, rfl⟩
  | some t =>
    dsimp only
    generalize w.declared t.definitionKey = symbols, (0 : Nat) = before
    induction symbols generalizing before with
    | nil => exact ⟨0, rfl⟩
    | cons x symbols ih =>
      rw [overloadSuffixIn]
      split
      · exact ⟨before, rfl⟩
      · exact ih _

namespace Compilation.IsListed

variable {w : World} {d : TypeDecl}

/-- The suffixes of the members of a class or a structure tell overloads apart. -/
theorem pairwise_overloadSuffix (listed : IsListed w d.type d.head.params d) (plain : d.values = [])
    (distinct : (d.members.map (·.symbol.key)).Nodup) :
    d.members.Pairwise fun m o => m.symbol.kind = o.symbol.kind → m.symbol.name = o.symbol.name →
      w.overloadSuffix m.symbol ≠ w.overloadSuffix o.symbol := by
  obtain ⟨extra, -, roster⟩ := listed.roster
  rw [plain, map_nil, nil_append] at roster
  rw [← Function.comp_def Symbol.key Member.symbol, ← map_map] at distinct
  have apart := pairwise_map.mp (pairwise_overloadSuffixIn distinct extra)
  rw [← roster] at apart
  refine apart.imp_of_mem fun {m o} hm ho differ kind name => ?_
  unfold World.overloadSuffix
  rw [(listed.entered m hm).container, (listed.entered o ho).container]
  exact differ kind name

theorem overloadSuffix_implicit (listed : IsListed w d.type d.head.params d) (plain : d.values = [])
    (none : d.membersOf [.constructor] = []) : w.overloadSuffix (Emit.implicitConstructor d) = "" := by
  obtain ⟨extra, last, roster⟩ := listed.roster
  rw [plain] at roster
  change overloadSuffixIn _ _ _ 0 (w.declared d.type.definitionKey) = ""
  rw [roster]
  refine overloadSuffixIn_eq_empty ?_ (last.imp id fun same => ⟨_, rfl, same⟩)
  intro s hs
  obtain ⟨m, hm, rfl⟩ := mem_map.mp hs
  have other : m.kind ≠ .constructor := by
    intro kind
    have mem : m ∈ d.membersOf [.constructor] := mem_filter.mpr ⟨hm, by simp [kind]⟩
    rw [none] at mem
    cases mem
  rw [isOverload, (listed.entered m hm).kind]
  cases kind : m.kind <;> simp_all [MemberKind.symbolKind, Emit.implicitConstructor]

end Compilation.IsListed

end Polyglot
