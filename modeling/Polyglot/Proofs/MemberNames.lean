import Mathlib.Data.List.Pairwise
import Polyglot.Proofs.FoldedNames
import Polyglot.Proofs.MemberKeys
import Polyglot.Proofs.RustFunctions
import Polyglot.Proofs.TypeScriptMembers

/-!
# Names of members

TypeScript and Rust know a member of a class by its name only. The suffix of an overload keeps overloads apart, and no more: a
name loses its case and is given prefixes and suffixes, so that members with different names can come to have the same name.
They cannot if their names differ without case, underscores and the number of an overload.
-/

namespace Polyglot

open Text List

/-! ## Names without case and numbers -/

namespace Text

/-- Is a text another one with digits behind it? -/
def isNumbered (s t : String) : Bool := s.toList.isPrefixOf t.toList && (t.toList.drop s.toList.length).all (·.isDigit)

/-- Two texts that become the same with digits behind them. -/
theorem isNumbered_of_append {s t p q : String} (hp : ∀ c ∈ p.toList, c.isDigit = true) (hq : ∀ c ∈ q.toList, c.isDigit = true)
    (same : s ++ p = t ++ q) : isNumbered s t = true ∨ isNumbered t s = true := by
  have digits {a b c : List Char} (whole : a = b ++ c) (all : ∀ x ∈ c, x.isDigit = true) :
      (b.isPrefixOf a && (a.drop b.length).all (·.isDigit)) = true := by
    rw [Bool.and_eq_true, isPrefixOf_iff_prefix, whole, drop_left, all_eq_true]
    exact ⟨prefix_append b c, all⟩
  have chars := congrArg String.toList same
  rw [String.toList_append, String.toList_append] at chars
  rcases append_eq_append_iff.mp chars with ⟨c, more, rest⟩ | ⟨c, more, rest⟩
  · exact .inl (digits more fun x hx => hp x (by rw [rest]; exact mem_append_left _ hx))
  · exact .inr (digits more fun x hx => hq x (by rw [rest]; exact mem_append_left _ hx))

end Text

open Text (folded)
open Target (unescaped)

theorem isDigit_folded_overloadMark (n : Nat) : ∀ c ∈ (folded (overloadMark n)).toList, c.isDigit = true := by
  have digits : ∀ c ∈ (decimal n).toList, c.isDigit = true := fun c => isDigit_of_mem_decimal
  unfold overloadMark
  split
  · exact all_eq_true.mp (by decide)
  · rw [folded_append, folded_of_digits digits]
    exact digits

theorem mark_not_mem_overloadMark (n : Nat) : '#' ∉ (overloadMark n).toList := by
  unfold overloadMark
  split
  · decide
  · intro mem
    rw [String.toList_append] at mem
    rcases mem_append.mp mem with first | digit
    · exact absurd first (by decide)
    · exact absurd (isDigit_of_mem_decimal digit) (by decide)

/-- What is left of the functions of a member without case, underscores and numbers. -/
def Origin.stems : Origin → List String
  | (.constructor, _) => ["new", "init"]
  | (.property, name) => ["get" ++ folded name, "set" ++ folded name]
  | (.method, name) | (.operator, name) => [folded name]
  | _ => []

/-- A function with a stem of a member. -/
def Origin.Names (o : Origin) (f : String) : Prop :=
  ∃ s ∈ o.stems, ∃ p, (∀ c ∈ p.toList, c.isDigit = true) ∧ folded (unescaped f) = s ++ p

/-- A function with a prefix, and the suffix of an overload. -/
theorem names_suffixed {o : Origin} {lead : String} (mem : lead ∈ o.stems) (plain : '#' ∉ lead.toList) (lower : folded lead = lead)
    (n : Nat) : o.Names (lead ++ overloadMark n) := by
  refine ⟨lead, mem, folded (overloadMark n), isDigit_folded_overloadMark n, ?_⟩
  have whole : '#' ∉ (lead ++ overloadMark n).toList := by
    rw [String.toList_append]
    exact fun mem => (mem_append.mp mem).elim plain (mark_not_mem_overloadMark n)
  rw [Target.unescaped_of_not_mem whole, folded_append, lower]

theorem names_plain {o : Origin} {f s : String} (mem : s ∈ o.stems) (plain : '#' ∉ f.toList) (same : folded f = s) : o.Names f := by
  refine ⟨s, mem, "", by simp, ?_⟩
  rw [Target.unescaped_of_not_mem plain, same, String.append_empty]

theorem new_ne_init (x y : String) : "new" ++ x ≠ "init" ++ y := by
  intro same
  have chars := congrArg String.toList same
  simp at chars

namespace Member

variable {w : World} {m o : Member}

theorem names_rustFunctions (plain : m.IsPlain) (isName : m.kind ≠ .constructor → IsName m.symbol.name.toList)
    (isInherent : Bool) : ∀ f ∈ m.rustFunctions w isInherent, m.origin.Names f := by
  obtain ⟨n, suffix⟩ := exists_overloadMark w m.symbol
  have origin : m.origin = (m.kind.symbolKind, m.symbol.name) := by rw [Member.origin, plain.kind]
  have target : m.symbol.targetName = m.symbol.name := if_pos plain.rename
  rw [Member.rustFunctions, origin, suffix]
  cases kind : m.kind with
  | constructor =>
    intro f hf
    simp only [mem_cons, not_mem_nil, or_false] at hf
    rcases hf with rfl | rfl
    all_goals exact names_suffixed (by simp [MemberKind.symbolKind, Origin.stems]) (by decide) (by decide) n
  | property =>
    have word := Target.mark_not_mem_fit (isName (by simp [kind]))
    have accessor (lead : String) (stem : folded lead ++ folded m.symbol.name ∈ Origin.stems (.property, m.symbol.name))
        (mark : '#' ∉ lead.toList) : Origin.Names (.property, m.symbol.name) (lead ++ snakeCase m.symbol.name) := by
      refine names_plain stem ?_ (by rw [folded_append, folded_snakeCase])
      rw [String.toList_append]
      exact fun mem => (mem_append.mp mem).elim mark word
    have read := accessor "get_" mem_cons_self (by decide)
    have write := accessor "set_" (mem_cons_of_mem _ mem_cons_self) (by decide)
    have either : ∀ f ∈ [Target.getter .rust m.symbol, Target.setter .rust m.symbol],
        Origin.Names (.property, m.symbol.name) f := by
      simpa [Target.getter, Target.getter?, Target.setter, Target.setter?, target] using ⟨read, write⟩
    intro f hf
    refine either f ?_
    dsimp only at hf
    revert hf
    split
    · split <;> simp +contextual
    · split <;> split <;> simp +contextual
  | method =>
    intro f hf
    rw [mem_singleton.mp hf]
    refine ⟨folded m.symbol.name, mem_singleton_self _, folded (overloadMark n), isDigit_folded_overloadMark n, ?_⟩
    exact Target.folded_unescaped_fitted (isName (by simp [kind])) (mark_not_mem_overloadMark n)
  | operator =>
    intro f hf
    rw [mem_singleton.mp hf]
    refine names_plain (mem_singleton_self _) (fun mark => ?_) rfl
    exact absurd ((isName (by simp [kind])).1.2 _ mark) (by decide)
  | field | event => simp

/-- The functions of a member have different names. -/
theorem nodup_rustFunctions (w : World) (isInherent : Bool) (m : Member) : (m.rustFunctions w isInherent).Nodup := by
  have accessors : Target.getter .rust m.symbol ≠ Target.setter .rust m.symbol := by
    intro same
    have chars := congrArg String.toList same
    simp [Target.getter, Target.getter?, Target.setter, Target.setter?] at chars
  unfold Member.rustFunctions
  split
  · simp
  · split
    · split <;> simp [accessors]
    · split <;> split <;> simp [accessors]
  · exact nodup_singleton _
  · exact nodup_singleton _
  all_goals exact nodup_nil

/-- **Overloads have different functions.** -/
theorem disjoint_rustFunctions {isInherent : Bool} (differs : m.Differs o)
    (suffix : m.symbol.kind = o.symbol.kind → m.symbol.name = o.symbol.name →
      w.overloadSuffix m.symbol ≠ w.overloadSuffix o.symbol)
    (same : m.origin = o.origin) : (m.rustFunctions w isInherent).Disjoint (o.rustFunctions w isInherent) := by
  obtain ⟨kind, name⟩ := Prod.mk.inj same
  have other := suffix kind name
  rcases differs with differ | ⟨kind', overloaded, -⟩
  · exact absurd name differ
  · unfold Member.rustFunctions
    rw [← kind', ← name]
    rcases overloaded with isMethod | isConstructor
    · rw [isMethod]
      simpa using other.symm
    · rw [isConstructor]
      simpa [new_ne_init, (new_ne_init _ _).symm] using other.symm

end Member

/-! ## Blocks -/

namespace RustBlock

/-- **A block whose overloads have different functions** has no function twice if and only if members of different kinds or
names have different functions. -/
theorem nodup_functions_iff {block : RustBlock} (each : ∀ e ∈ block, e.2.Nodup)
    (overloads : block.Pairwise fun e f => e.1 = f.1 → e.2.Disjoint f.2) :
    block.functions.Nodup ↔ ∀ e ∈ block, ∀ f ∈ block, e.1 ≠ f.1 → e.2.Disjoint f.2 := by
  rw [functions, nodup_flatMap]
  constructor
  · rintro ⟨-, apart⟩ e he f hf differ
    have : Std.Symm (Function.onFun List.Disjoint (Prod.snd : Origin × List String → List String)) :=
      ⟨fun _ _ => List.Disjoint.symm⟩
    exact apart.forall he hf fun same => differ (congrArg Prod.fst same)
  · intro differ
    refine ⟨each, overloads.imp_of_mem fun {e f} he hf same => ?_⟩
    by_cases origin : e.1 = f.1
    · exact same origin
    · exact differ e he f hf origin

theorem overloads_ofMembers {w : World} {isInherent : Bool} {members : List Member} (differ : members.Pairwise Member.Differs)
    (suffixes : members.Pairwise fun m o => m.symbol.kind = o.symbol.kind → m.symbol.name = o.symbol.name →
      w.overloadSuffix m.symbol ≠ w.overloadSuffix o.symbol) :
    (ofMembers w isInherent members).Pairwise fun e f => e.1 = f.1 → e.2.Disjoint f.2 := by
  rw [ofMembers, pairwise_map]
  exact (differ.and suffixes).imp fun apart => Member.disjoint_rustFunctions apart.1 apart.2

end RustBlock

namespace TypeDecl

variable {w : World} {d : TypeDecl}

def origins (d : TypeDecl) : List Origin := (.constructor, ".ctor") :: d.members.map Member.origin

/-- **No function of a member is one of another member** without case, underscores and numbers. -/
def StemsApart (d : TypeDecl) : Prop :=
  ∀ a ∈ d.origins, ∀ b ∈ d.origins, a ≠ b → ∀ s ∈ a.stems, ∀ t ∈ b.stems, isNumbered s t = false

instance (d : TypeDecl) : Decidable d.StemsApart := inferInstanceAs (Decidable (∀ a ∈ _, ∀ b ∈ _, _ → ∀ s ∈ _, ∀ t ∈ _, _))

def Bears (d : TypeDecl) (block : RustBlock) : Prop := ∀ e ∈ block, e.1 ∈ d.origins ∧ ∀ f ∈ e.2, e.1.Names f

theorem StemsApart.disjoint {block : RustBlock} (apart : d.StemsApart) (bears : d.Bears block) :
    ∀ e ∈ block, ∀ f ∈ block, e.1 ≠ f.1 → e.2.Disjoint f.2 := by
  intro e he f hf differ name here there
  obtain ⟨s, hs, p, digits, isName⟩ := (bears e he).2 name here
  obtain ⟨t, ht, q, digits', isName'⟩ := (bears f hf).2 name there
  rcases isNumbered_of_append digits digits' (isName.symm.trans isName') with more | more
  · rw [apart _ (bears e he).1 _ (bears f hf).1 differ s hs t ht] at more
    cases more
  · rw [apart _ (bears f hf).1 _ (bears e he).1 differ.symm t ht s hs] at more
    cases more

theorem bears_ofMembers {isInherent : Bool} {members : List Member} (own : ∀ m ∈ members, m ∈ d.members)
    (plain : ∀ m ∈ d.members, m.IsPlain) (source : d.IsSource) : d.Bears (RustBlock.ofMembers w isInherent members) := by
  intro e he
  obtain ⟨m, hm, rfl⟩ := mem_map.mp he
  have mem := own m hm
  exact ⟨mem_cons_of_mem _ (mem_map_of_mem mem),
    Member.names_rustFunctions (plain m mem) (source.names m mem) isInherent⟩

/-- A block of a type whose overloads have different functions. -/
structure Holds (d : TypeDecl) (block : RustBlock) : Prop where
  each : ∀ e ∈ block, e.2.Nodup
  overloads : block.Pairwise fun e f => e.1 = f.1 → e.2.Disjoint f.2
  bears : d.Bears block

section Blocks

variable (listed : Compilation.IsListed w d.type d.head.params d) (source : d.IsSource)
  (keys : (d.members.map (·.symbol.key)).Nodup)
include listed source

theorem isPlain_of_listed : ∀ m ∈ d.members, m.IsPlain :=
  fun m hm => ⟨source.renames m hm, (listed.entered m hm).kind⟩

include keys

theorem holds_ofMembers (isInherent : Bool) (p : Member → Bool) :
    d.Holds (RustBlock.ofMembers w isInherent (d.members.filter p)) where
  each := by
    intro e he
    obtain ⟨m, -, rfl⟩ := mem_map.mp he
    exact Member.nodup_rustFunctions w isInherent m
  overloads := by
    refine RustBlock.overloads_ofMembers (source.differ.sublist filter_sublist) ?_
    exact (listed.pairwise_overloadSuffix source.values keys).sublist filter_sublist
  bears := bears_ofMembers (fun m hm => (mem_filter.mp hm).1) (isPlain_of_listed listed source) source

theorem holds_inherentBlock : d.Holds (d.inherentBlock w) := by
  have members := holds_ofMembers listed source keys true fun m =>
    m.kind ≠ .field && !(Emit.interfaceNames w (d.interfacesIn w) d).contains m.symbol.name
  unfold inherentBlock
  split
  · next none =>
    rw [List.isEmpty_iff] at none
    rw [listed.overloadSuffix_implicit source.values none]
    refine ⟨forall_mem_cons.mpr ⟨nodup_singleton _, members.each⟩, .cons (fun e he same => ?_) members.overloads,
      forall_mem_cons.mpr ⟨⟨mem_cons_self, ?_⟩, members.bears⟩⟩
    · -- no member has the kind of the constructor that the type gets
      obtain ⟨m, hm, rfl⟩ := mem_map.mp he
      have mem := (mem_filter.mp hm).1
      have kind : m.kind.symbolKind = .constructor := by
        rw [← (listed.entered m mem).kind]
        exact (congrArg Prod.fst same).symm
      have listed : m ∈ d.membersOf [.constructor] := by
        refine mem_filter.mpr ⟨mem, ?_⟩
        revert kind
        cases m.kind <;> decide
      rw [none] at listed
      cases listed
    · intro f hf
      rw [mem_singleton.mp hf]
      exact names_plain mem_cons_self (by decide) (by decide)
  · exact members

theorem holds_rustBlocks : ∀ block ∈ d.rustBlocks w, d.Holds block := by
  refine forall_mem_cons.mpr ⟨holds_inherentBlock listed source keys, fun block hb => ?_⟩
  obtain ⟨t, -, rfl⟩ := mem_map.mp hb
  exact holds_ofMembers listed source keys false _

end Blocks

/-! ## Classes in TypeScript -/

/-- **Members with different names**: no two members have a name in common, and one that has two names is a getter with its
setter. -/
structure HasDistinctSlots (d : TypeDecl) : Prop where
  apart : d.members.Pairwise fun m o => ∀ s ∈ m.slots, ∀ t ∈ o.slots, s.name ≠ t.name
  pairs : ∀ m ∈ d.members, m.slots.Pairwise fun s t => s.role = .getter ∧ t.role = .setter

end TypeDecl

theorem Member.pairwise_slots (m : Member) : m.slots.Pairwise fun s t => s.role = .getter ∧ t.role = .setter := by
  unfold Member.slots
  split
  any_goals exact pairwise_singleton _ _
  · split
    · exact pairwise_singleton _ _
    · split <;> split <;> simp
  · exact .nil

theorem Member.name_of_mem_slots {m : Member} {s : MemberSlot} (hs : s ∈ m.slots) : s.name = m.typescriptName := by
  unfold Member.slots at hs
  split at hs
  any_goals rw [mem_singleton.mp hs]
  · split at hs
    · rw [mem_singleton.mp hs]
    · rcases mem_append.mp hs with reads | writes
      · split at reads
        · rw [mem_singleton.mp reads]
        · cases reads
      · split at writes
        · rw [mem_singleton.mp writes]
        · cases writes
  · cases hs

theorem Member.folded_typescriptName (m : Member) : folded m.typescriptName = folded m.symbol.name := by
  unfold Member.typescriptName
  split
  · rfl
  · exact Target.folded_fitted_typescript _

namespace TypeDecl

variable {d : TypeDecl}

/-- **The names of the members differ** without case and underscores. -/
def FoldsApart (d : TypeDecl) : Prop :=
  ∀ m ∈ d.members, ∀ o ∈ d.members, m.symbol.name ≠ o.symbol.name → folded m.symbol.name ≠ folded o.symbol.name

instance (d : TypeDecl) : Decidable d.FoldsApart := inferInstanceAs (Decidable (∀ m ∈ _, ∀ o ∈ _, _ → _))

/-- Without overloads the names that a class declares are different if and only if members with different names in the source
have different names in the class. -/
theorem hasDistinctSlots_iff (source : d.IsSource) (single : d.overloaded? = none) :
    d.HasDistinctSlots ↔ ∀ m ∈ d.members, ∀ o ∈ d.members, m.symbol.name ≠ o.symbol.name →
      ∀ s ∈ m.slots, ∀ t ∈ o.slots, s.name ≠ t.name := by
  constructor
  · rintro ⟨apart, -⟩ m hm o ho differ
    have : Std.Symm fun m o : Member => ∀ s ∈ m.slots, ∀ t ∈ o.slots, s.name ≠ t.name :=
      ⟨fun _ _ h t ht s hs => (h s hs t ht).symm⟩
    exact apart.forall hm ho fun same => differ (congrArg (·.symbol.name) same)
  · intro differ
    refine ⟨(source.differ.and (pairwise_methods single)).imp_of_mem fun {m o} hm ho apart => ?_, fun m _ => m.pairwise_slots⟩
    obtain ⟨differs, methods⟩ := apart
    by_cases name : m.symbol.name = o.symbol.name
    · rcases differs with other | ⟨kind, isMethod | isConstructor, -⟩
      · exact absurd name other
      · exact absurd name (methods isMethod (kind.symm.trans isMethod))
      · intro s hs
        rw [Member.slots, isConstructor] at hs
        cases hs
    · exact differ m hm o ho name

theorem FoldsApart.slots (apart : d.FoldsApart) : ∀ m ∈ d.members, ∀ o ∈ d.members, m.symbol.name ≠ o.symbol.name →
    ∀ s ∈ m.slots, ∀ t ∈ o.slots, s.name ≠ t.name := by
  intro m hm o ho differ s hs t ht same
  rw [Member.name_of_mem_slots hs, Member.name_of_mem_slots ht] at same
  have folds := congrArg folded same
  rw [Member.folded_typescriptName, Member.folded_typescriptName] at folds
  exact apart m hm o ho differ folds

end TypeDecl

/-! ## Units -/

/-- Something stands behind the head of a file. -/
def EndsIn (P : String → Prop) (text : String) : Prop := ∃ front body, text = front ++ body ∧ P body

namespace Compilation

variable {options : Options} {c : Compilation} {t : Target} {d : TypeDecl} {file : String} {doc : Document}

/-- What stands behind the head of the file of a unit. -/
theorem endsIn_of_unit {P : String → Prop} (other : t ≠ .cpp) (succeeds : (emitUnit options c t d).failure = none)
    (full : options.isCheck = false)
    (body : Emit.Adds (unitScene options c t d) 0 0 P (Emit.fileBody (unitScene options c t d).emitter (unitScene options c t d))) :
    (∃ o, (emitUnit options c t d).outputs = [o] ∧ EndsIn P o.text) ∧
      ∃ sheet, Emit.artifactFile.runOn (unitScene options c t d) = (.ok (), sheet) := by
  obtain ⟨o, outputs, sheet, run, text⟩ := exists_output_of_unit other succeeds full
  obtain ⟨front, inside, -, holds, parts⟩ :=
    Emit.text_artifactFile body.leaves (Emit.grows_fileHead _).leaves run
  exact ⟨⟨o, outputs, front, inside, text.trans parts, holds⟩, sheet, run⟩

/-- **Names of members collide only across different names of the source.** A class in TypeScript is made of the names of its
members, and a type in Rust of blocks with the functions of its members. Members of the same name in the source never have a name
in common, so all names are different if and only if members of different names, or kinds, have none in common. They have none
whenever their names differ without case and underscores, and in Rust without the prefixes of accessors, the names of
constructors and the numbers of overloads. -/
theorem member_names_distinct_iff (load : ofDocument Prelude.types file doc = .ok c)
    (names : ∀ d, some d ∈ doc.externals ++ doc.types → IsWords d.name) (hd : d ∈ c.types)
    (isClass : d.head.kind = .classDecl ∨ d.head.kind = .structDecl) (source : d.IsSource) (full : options.isCheck = false) :
    ((emitUnit options c .typescript d).failure = none →
      (∃ o, (emitUnit options c .typescript d).outputs = [o] ∧
        EndsIn (IsTypeScriptClass (unitScene options c .typescript d)) o.text) ∧
      (d.HasDistinctSlots ↔ ∀ m ∈ d.members, ∀ o ∈ d.members, m.symbol.name ≠ o.symbol.name →
        ∀ s ∈ m.slots, ∀ t ∈ o.slots, s.name ≠ t.name) ∧
      (d.FoldsApart → d.HasDistinctSlots)) ∧
    ((emitUnit options c .rust d).failure = none →
      (∃ o, (emitUnit options c .rust d).outputs = [o] ∧ EndsIn (IsRustType (unitScene options c .rust d)) o.text) ∧
      ∀ block ∈ d.rustBlocks c.world,
        (block.functions.Nodup ↔ ∀ e ∈ block, ∀ f ∈ block, e.1 ≠ f.1 → e.2.Disjoint f.2) ∧
        (d.StemsApart → block.functions.Nodup)) := by
  have wellNamed : ∀ d, some d ∈ doc.types → d.WellNamed :=
    fun d hd => TypeDraft.wellNamed_of_isWords (names d (mem_append_right _ hd))
  have listed := listed_of_load wellNamed load hd
  have plain := TypeDecl.isPlain_of_listed listed source
  refine ⟨fun succeeds => ?_, fun succeeds => ?_⟩
  · have body : Emit.Adds (unitScene options c .typescript d) 0 0 (IsTypeScriptClass (unitScene options c .typescript d))
        (Emit.fileBody (unitScene options c .typescript d).emitter (unitScene options c .typescript d)) :=
      Emit.adds_typescriptDeclaration (Emitter.within_tidy _) rfl plain isClass
    obtain ⟨output, sheet, run⟩ := endsIn_of_unit (by decide) succeeds full body
    have law := TypeDecl.hasDistinctSlots_iff source (Emit.overloaded?_of_run rfl run)
    exact ⟨output, law, fun apart => law.mpr apart.slots⟩
  · have body : Emit.Adds (unitScene options c .rust d) 0 0 (IsRustType (unitScene options c .rust d))
        (Emit.fileBody (unitScene options c .rust d).emitter (unitScene options c .rust d)) :=
      Emit.adds_rustDeclaration (Emitter.within_tidy _) rfl plain isClass
    obtain ⟨output, -⟩ := endsIn_of_unit (by decide) succeeds full body
    refine ⟨output, fun block hb => ?_⟩
    have holds := TypeDecl.holds_rustBlocks listed source (nodup_keys load names hd source) block hb
    have law := RustBlock.nodup_functions_iff holds.each holds.overloads
    exact ⟨law, fun apart => law.mpr (apart.disjoint holds.bears)⟩

def typescriptAndRust : Options := { targets := [.typescript, .rust], templates := {} }

def boxDraft : TypeDraft :=
  { kind := "class", name := "N.Box"
    members := [some { kind := "field", name := "Count", type := "int" },
      some { kind := "property", name := "Size", type := "int", getter := some { kind := "block" }, setter := some { kind := "block" } },
      some { kind := "method", name := "Grow", parameters := [some { name := "by", type := "int" }]
             body := some { kind := "block" } }] }

def pileDraft : TypeDraft :=
  { kind := "class", name := "N.Pile"
    members := [some { kind := "constructor", body := some { kind := "block" } },
      some { kind := "constructor", parameters := [some { name := "n", type := "int" }], body := some { kind := "block" } },
      some { kind := "method", name := "Add", parameters := [some { name := "n", type := "int" }]
             body := some { kind := "block" } },
      some { kind := "method", name := "Add", parameters := [some { name := "s", type := "string" }]
             body := some { kind := "block" } },
      some { kind := "property", name := "Total", type := "int" }] }

/-- The names of a class, and the functions of another one with overloads. -/
theorem member_names_distinct_pile : ∃ c box pile,
    ofDocument Prelude.types "" { types := [some boxDraft, some pileDraft] } = .ok c ∧ box ∈ c.types ∧ pile ∈ c.types ∧
    (∃ o, (emitUnit typescriptAndRust c .typescript box).outputs = [o] ∧
      EndsIn (IsTypeScriptClass (unitScene typescriptAndRust c .typescript box)) o.text) ∧
    box.members.flatMap Member.slots = [⟨.value, "count"⟩, ⟨.getter, "size"⟩, ⟨.setter, "size"⟩, ⟨.value, "grow"⟩] ∧
    box.HasDistinctSlots ∧
    (∃ o, (emitUnit typescriptAndRust c .rust pile).outputs = [o] ∧
      EndsIn (IsRustType (unitScene typescriptAndRust c .rust pile)) o.text) ∧
    (pile.rustBlocks c.world).map RustBlock.functions =
      [["new", "init", "new_1", "init_1", "add", "add_1", "get_total", "set_total"]] ∧
    ∀ block ∈ pile.rustBlocks c.world, block.functions.Nodup := by
  have loaded : (ofDocument Prelude.types "" { types := [some boxDraft, some pileDraft] }).toOption.any (fun c => decide (
      ∃ box ∈ c.types, ∃ pile ∈ c.types, box.head.kind = .classDecl ∧ pile.head.kind = .classDecl ∧ box.IsSource ∧ pile.IsSource ∧
        (emitUnit typescriptAndRust c .typescript box).failure = none ∧ (emitUnit typescriptAndRust c .rust pile).failure = none ∧
        box.FoldsApart ∧ pile.StemsApart ∧
        box.members.flatMap Member.slots = [⟨.value, "count"⟩, ⟨.getter, "size"⟩, ⟨.setter, "size"⟩, ⟨.value, "grow"⟩] ∧
        (pile.rustBlocks c.world).map RustBlock.functions =
          [["new", "init", "new_1", "init_1", "add", "add_1", "get_total", "set_total"]])) = true := by
    decide +kernel
  have names : ∀ d, some d ∈ ([] : List (Option TypeDraft)) ++ [some boxDraft, some pileDraft] → IsWords d.name := by
    intro d hd
    have either : d = boxDraft ∨ d = pileDraft := by simpa using hd
    rcases either with rfl | rfl <;> decide
  obtain ⟨c, load, found⟩ := exists_ok_of_any loaded
  obtain ⟨box, hbox, pile, hpile, boxClass, pileClass, boxSource, pileSource, typescript, rust, folds, stems, slots, functions⟩ :=
    of_decide_eq_true found
  obtain ⟨boxOutput, -, distinct⟩ :=
    (member_names_distinct_iff load names hbox (.inl boxClass) boxSource rfl).1 typescript
  obtain ⟨pileOutput, blocks⟩ := (member_names_distinct_iff load names hpile (.inl pileClass) pileSource rfl).2 rust
  exact ⟨c, box, pile, load, hbox, hpile, boxOutput, slots, distinct folds, pileOutput, functions,
    fun block hb => (blocks block hb).2 stems⟩

/-- A class with two fields that differ in case, and a method with the name of a constructor. -/
def cellDraft : TypeDraft :=
  { kind := "class", name := "N.Cell"
    members := [some { kind := "field", name := "Value", type := "int" }, some { kind := "field", name := "value", type := "int" },
      some { kind := "method", name := "New", body := some { kind := "block" } }] }

def cellFiles : List String :=
  ["export class Cell \x7b\n  private value: number = 0;\n  private value: number = 0;\n\n  private new_(): void \x7b\n  \x7d\n\x7d\n",
    "#![allow(non_snake_case, unused_imports, unused_mut, dead_code)]\n\nuse std::cell::RefCell;\nuse std::rc::\x7bRc, Weak\x7d;\n\n" ++
      "#[derive(Default)]\npub struct Cell \x7b\n    value: i32,\n    value: i32,\n\x7d\n\n" ++
      "impl Cell \x7b\n    pub fn new() -> Rc<RefCell<Self>> \x7b\n        let this = Rc::new(RefCell::new(Cell \x7b\n" ++
      "            value: 0,\n            value: 0,\n        \x7d));\n        this\n    \x7d\n\n" ++
      "    fn new(&mut self) \x7b\n    \x7d\n\x7d\n"]

/-- **Not all names are different**: fields that differ in case become one name in TypeScript, and a method `New` has the name
of the constructor in Rust. -/
theorem member_names_collide_cell : ∃ c d, ofDocument Prelude.types "" { types := [some cellDraft] } = .ok c ∧ d ∈ c.types ∧
    d.head.kind = .classDecl ∧ d.IsSource ∧
    (emitUnit typescriptAndRust c .typescript d).failure = none ∧ (emitUnit typescriptAndRust c .rust d).failure = none ∧
    ((emitUnit typescriptAndRust c .typescript d).outputs ++ (emitUnit typescriptAndRust c .rust d).outputs).map (·.text) =
      cellFiles ∧
    d.members.flatMap Member.slots = [⟨.value, "value"⟩, ⟨.value, "value"⟩, ⟨.value, "new_"⟩] ∧
    (d.rustBlocks c.world).map RustBlock.functions = [["new", "new"]] :=
  exists_mem_ok_of_decide (by decide +kernel)

end Compilation

end Polyglot
