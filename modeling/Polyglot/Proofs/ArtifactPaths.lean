import Mathlib.Data.List.Nodup
import Polyglot.Prelude
import Polyglot.Proofs.Passes

/-!
# When artifacts have different paths

The files of a type stand in the directories of its namespace, under its name. A generic type whose name is declared with
several numbers of type parameters has its number behind the name, so that `Box<T>` beside `Box` is in the same file as `Box1`.
Names are also put in lower case or in snake case, and library names take the place of declared ones. Nothing else goes wrong:
the paths are different exactly when no two types have their files in the same place.
-/

namespace Polyglot

open Text List

/-- A definition under dotted names, which is not given another name. -/
structure TypeHead.IsRegular (h : TypeHead) : Prop where
  name : IsName h.name.toList
  space : h.space = "" ∨ IsDotted h.space
  rename : h.rename = ""

namespace Target

variable {t : Target} {idx : TypeIndex} {h h' : TypeHead} {s a b : String} {kind : ArtifactKind}

/-- **The place of a type's files**: the directories above them, and their name before the suffix. -/
def location (t : Target) (idx : TypeIndex) (h : TypeHead) : List String × String :=
  (if declaredSpace h = "" then [] else (split '.' (declaredSpace h)).map t.directoryName, t.baseFileName (t.fileName idx h))

theorem artifactPath_eq (t : Target) (idx : TypeIndex) (h : TypeHead) (kind : ArtifactKind) :
    t.artifactPath idx h kind = Path.join ((t.location idx h).1 ++ [(t.location idx h).2 ++ t.suffix kind]) := by
  rw [artifactPath, location]

/-! ## Names of directories and files -/

theorem isPlain_directoryName (t : Target) (h : IsName s.toList) : IsPlain (t.directoryName s) := by
  cases t with
  | java =>
    refine isPlain_of_isWord ?_
    simpa only [directoryName, lowerCase, String.toList_ofList] using h.1.map_toLower
  | rust =>
    refine isPlain_of_isWord ?_
    simpa only [directoryName, snakeCase, String.toList_ofList] using h.snakeChars.1
  | _ => exact isPlain_of_isWord h.1

theorem isPlain_baseFileName (t : Target) (h : IsName s.toList) : IsPlain (t.baseFileName s) := by
  cases t with
  | rust =>
    refine isPlain_of_isWord ?_
    simpa only [baseFileName, snakeCase, String.toList_ofList] using h.snakeChars.1
  | _ => exact isPlain_of_isWord h.1

theorem isPlain_externals (t : Target) : ∀ row ∈ t.externals,
    IsPlain (t.baseFileName ((afterLast? t.separator row.2).getD row.2)) := by
  cases t <;> decide +kernel

theorem isDigit_of_mem_aritySuffix {c : Char} (hc : c ∈ (aritySuffix idx h).toList) : c.isDigit = true := by
  unfold aritySuffix at hc
  split at hc
  · exact isDigit_of_mem_decimal hc
  · cases hc

theorem isName_append_aritySuffix (idx : TypeIndex) (name : IsName h.name.toList) :
    IsName (h.name ++ aritySuffix idx h).toList := by
  obtain ⟨⟨nonempty, chars⟩, first⟩ := name
  rw [String.toList_append]
  refine ⟨⟨by simp [nonempty], ?_⟩, ?_⟩
  · intro c hc
    rcases mem_append.mp hc with hc | hc
    · exact chars c hc
    · simp [isIdentifierChar, Char.isAlphanum, isDigit_of_mem_aritySuffix hc]
  · rw [head?_append_of_ne_nil _ nonempty]
    exact first

/-- The file of a type that has no library name carries its own name, and its arity where that is ambiguous. -/
theorem fileName_eq (own : t.external? h.key = none) (rename : h.rename = "") :
    t.fileName idx h = h.name ++ aritySuffix idx h := by
  unfold fileName declaredName emittedName
  rw [own, if_pos rename]
  dsimp only
  split <;> simp

theorem isPlain_fileName (idx : TypeIndex) (regular : h.IsRegular) : IsPlain (t.baseFileName (t.fileName idx h)) := by
  cases own : t.external? h.key with
  | none =>
    rw [fileName_eq own regular.rename]
    exact t.isPlain_baseFileName (isName_append_aritySuffix idx regular.name)
  | some name =>
    have row := t.isPlain_externals _ (mem_of_lookup own)
    have library : t.fileName idx h = (afterLast? t.separator name).getD name := by
      unfold fileName declaredName
      rw [own]
      cases t with
      | csharp => cases own
      | _ => exact String.append_empty
    rw [library]
    exact row

/-! ## Files -/

def kinds (t : Target) (h : TypeHead) : List ArtifactKind :=
  match t with
  | cpp =>
    if h.arity = 0 && (h.kind = .classDecl || h.kind = .structDecl) then [.declaration, .definition]
    else [.declaration]
  | _ => [.source]

theorem artifacts_eq (t : Target) (idx : TypeIndex) (h : TypeHead) :
    t.artifacts idx h = (t.kinds h).map fun kind => { kind, path := t.artifactPath idx h kind } := by
  cases t with
  | cpp =>
    simp only [artifacts, kinds]
    split <;> rfl
  | _ => rfl

/-- The first file of all types is of the same kind. -/
theorem exists_kind (t : Target) : ∃ kind, ∀ h, kind ∈ t.kinds h := by
  cases t with
  | cpp =>
    refine ⟨.declaration, fun h => ?_⟩
    simp only [kinds]
    split <;> simp
  | _ => exact ⟨.source, fun _ => mem_singleton_self _⟩

theorem nodup_kinds (t : Target) (h : TypeHead) : (t.kinds h).Nodup := by
  cases t with
  | cpp =>
    simp only [kinds]
    split <;> decide
  | _ => exact nodup_singleton _

/-- The kinds of files that a target writes, whatever the type. -/
def allKinds : Target → List ArtifactKind
  | cpp => [.declaration, .definition]
  | _ => [.source]

theorem kinds_subset (t : Target) (h : TypeHead) : t.kinds h ⊆ t.allKinds := by
  cases t with
  | cpp =>
    simp only [kinds]
    split <;> simp [allKinds]
  | _ => exact fun _ mem => mem

/-- Suffixes are a dot and letters, other letters for each kind. -/
theorem suffix_allKinds (t : Target) : ∀ kind ∈ t.allKinds,
    (t.suffix kind).toList.head? = some '.' ∧ '.' ∉ (t.suffix kind).toList.tail ∧ '/' ∉ (t.suffix kind).toList ∧
      ∀ kind' ∈ t.allKinds, t.suffix kind = t.suffix kind' → kind = kind' := by
  cases t <;> decide

theorem declaredSpace_eq (rename : h.rename = "") : declaredSpace h = h.space := by
  rw [declaredSpace, rename]
  rfl

theorem isPart_location (idx : TypeIndex) (regular : h.IsRegular) (hk : kind ∈ t.kinds h) :
    ∀ part ∈ (t.location idx h).1 ++ [(t.location idx h).2 ++ t.suffix kind], Path.IsPart part := by
  obtain ⟨-, -, slash, -⟩ := t.suffix_allKinds kind (t.kinds_subset h hk)
  intro part hpart
  rcases mem_append.mp hpart with hpart | hpart
  · rw [location, declaredSpace_eq regular.rename] at hpart
    rcases regular.space with global | dotted
    · rw [if_pos global] at hpart
      cases hpart
    · split at hpart
      · cases hpart
      · obtain ⟨piece, hpiece, rfl⟩ := mem_map.mp hpart
        exact (t.isPlain_directoryName (dotted piece hpiece)).isPart
  · rw [mem_singleton.mp hpart]
    exact (isPlain_fileName idx regular).isPart_append slash

/-- **A path shows the place and the kind of a file.** -/
theorem artifactPath_inj (regular : h.IsRegular) (regular' : h'.IsRegular) {kind' : ArtifactKind}
    (hk : kind ∈ t.kinds h) (hk' : kind' ∈ t.kinds h') (same : t.artifactPath idx h kind = t.artifactPath idx h' kind') :
    t.location idx h = t.location idx h' ∧ kind = kind' := by
  obtain ⟨lead, dot, -, inj⟩ := t.suffix_allKinds kind (t.kinds_subset h hk)
  obtain ⟨lead', dot', -, -⟩ := t.suffix_allKinds kind' (t.kinds_subset h' hk')
  have parts := Path.join_inj (by simp) (by simp) (isPart_location idx regular hk)
    (isPart_location idx regular' hk') same
  obtain ⟨directories, file⟩ := append_inj' parts rfl
  have chars : (t.location idx h).2.toList ++ '.' :: (t.suffix kind).toList.tail =
      (t.location idx h').2.toList ++ '.' :: (t.suffix kind').toList.tail := by
    rw [cons_head?_tail lead, cons_head?_tail lead', ← String.toList_append, ← String.toList_append, singleton_inj.mp file]
  obtain ⟨stem, -, tail⟩ := (append_cons_inj_of_notMem (isPlain_fileName idx regular').dot dot').mp chars.symm
  refine ⟨Prod.ext directories (String.toList_injective stem.symm), inj kind' (t.kinds_subset h' hk') ?_⟩
  apply String.toList_injective
  rw [← cons_head?_tail lead, ← cons_head?_tail lead', tail]

/-- **Different places, different paths**, for any list of definitions. -/
theorem nodup_paths_iff (t : Target) (idx : TypeIndex) {heads : List TypeHead} (regular : ∀ h ∈ heads, h.IsRegular) :
    ((heads.flatMap (t.artifacts idx)).map (·.path)).Nodup ↔
      heads.Pairwise fun h h' => t.location idx h ≠ t.location idx h' := by
  have paths (h : TypeHead) : (t.artifacts idx h).map (·.path) = (t.kinds h).map (t.artifactPath idx h) := by
    simp only [artifacts_eq, map_map, Function.comp_def]
  rw [map_flatMap, nodup_flatMap]
  simp only [paths]
  rw [and_iff_right]
  · refine List.Pairwise.iff_of_mem fun {h h'} hh hh' => ⟨?_, ?_⟩
    · intro disjoint same
      obtain ⟨kind, all⟩ := t.exists_kind
      have first : t.artifactPath idx h kind ∈ (t.kinds h).map (t.artifactPath idx h) := mem_map_of_mem (all h)
      have second : t.artifactPath idx h kind ∈ (t.kinds h').map (t.artifactPath idx h') := by
        rw [artifactPath_eq, same]
        exact mem_map_of_mem (all h')
      exact disjoint first second
    · intro ne path hpath hpath'
      obtain ⟨kind, hk, rfl⟩ := mem_map.mp hpath
      obtain ⟨kind', hk', same⟩ := mem_map.mp hpath'
      exact ne (artifactPath_inj (regular h hh) (regular h' hh') hk hk' same.symm).1
  · intro h hh
    exact (t.nodup_kinds h).map_on fun k hk k' hk' same =>
      (artifactPath_inj (regular h hh) (regular h hh) hk hk' same).2

/-! ## Siblings -/

theorem aritySuffix_inj (collides : idx.collides (.named h) = true) (collides' : idx.collides (.named h') = true)
    (same : aritySuffix idx h = aritySuffix idx h') : h.arity = h'.arity := by
  have digits (n : Nat) : decimal n ≠ "" := by
    intro empty
    have chars := congrArg String.toList empty
    rw [decimal, String.toList_ofList] at chars
    exact Nat.toDigits_ne_nil chars
  simp only [aritySuffix, collides, collides', Bool.and_true, decide_eq_true_eq] at same
  split at same
  · split at same
    · exact decimal_injective same
    · exact absurd same (digits _)
  · split at same
    · exact absurd same.symm (digits _)
    · omega

theorem baseFileName_append_inj (t : Target) (name : String) (ha : ∀ c ∈ a.toList, c.isDigit = true)
    (hb : ∀ c ∈ b.toList, c.isDigit = true) (same : t.baseFileName (name ++ a) = t.baseFileName (name ++ b)) : a = b := by
  apply String.toList_injective
  have chars := congrArg String.toList same
  cases t with
  | rust =>
    simp only [baseFileName, snakeCase, String.toList_ofList, String.toList_append,
      snakeChars_append_digits ha, snakeChars_append_digits hb] at chars
    exact append_cancel_left chars
  | _ =>
    simp only [baseFileName, String.toList_append] at chars
    exact append_cancel_left chars

/-- **Arities keep siblings apart**: types of one name with different numbers of type parameters, unless they have
library names. -/
theorem location_ne_of_siblings (rename : h.rename = "") (rename' : h'.rename = "") (own : t.external? h.key = none)
    (own' : t.external? h'.key = none) (name : h.name = h'.name) (arity : h.arity ≠ h'.arity)
    (collides : idx.collides (.named h) = true) (collides' : idx.collides (.named h') = true) :
    t.location idx h ≠ t.location idx h' := by
  intro same
  have files : t.baseFileName (t.fileName idx h) = t.baseFileName (t.fileName idx h') := congrArg Prod.snd same
  rw [fileName_eq own rename, fileName_eq own' rename', name] at files
  have suffixes := t.baseFileName_append_inj h'.name (fun _ => isDigit_of_mem_aritySuffix)
    (fun _ => isDigit_of_mem_aritySuffix) files
  exact arity (aritySuffix_inj collides collides' suffixes)

/-! ## Names without digits at the end -/

/-- No number can be read off the end of the name. -/
def EndsInNoDigit (name : String) : Prop := ∀ c ∈ name.toList.getLast?, c.isDigit = false

instance (name : String) : Decidable (EndsInNoDigit name) :=
  decidable_of_iff (name.toList.getLast?.all (! ·.isDigit) = true)
    (by rw [EndsInNoDigit]; cases name.toList.getLast? <;> simp)

theorem append_digits_inj {p q : String} (hp : EndsInNoDigit p) (hq : EndsInNoDigit q)
    (ha : ∀ c ∈ a.toList, c.isDigit = true) (hb : ∀ c ∈ b.toList, c.isDigit = true) (same : p ++ a = q ++ b) : p = q := by
  have cut {p a : String} (hp : EndsInNoDigit p) (ha : ∀ c ∈ a.toList, c.isDigit = true) :
      (p ++ a).toList.reverse.dropWhile Char.isDigit = p.toList.reverse := by
    rw [String.toList_append, reverse_append, dropWhile_append_of_pos (by simpa using ha)]
    cases turned : p.toList.reverse with
    | nil => rfl
    | cons c cs =>
      have last : p.toList.getLast? = some c := by
        rw [← head?_reverse, turned]
        rfl
      rw [dropWhile_cons_of_neg (by simp [hp c last])]
  have turned : p.toList.reverse = q.toList.reverse := by rw [← cut hp ha, same, cut hq hb]
  exact String.toList_injective (reverse_injective turned)

/-- Directories that keep their case show the namespace. -/
theorem space_eq_of_location (java : t ≠ .java) (rust : t ≠ .rust) (rename : h.rename = "") (rename' : h'.rename = "")
    (same : (t.location idx h).1 = (t.location idx h').1) : h.space = h'.space := by
  have directories (parts : List String) : parts.map t.directoryName = parts := by
    cases t with
    | java => exact absurd rfl java
    | rust => exact absurd rfl rust
    | _ => exact map_id parts
  have some (s : String) : split '.' s ≠ [] := by
    rw [split, ne_eq, map_eq_nil_iff]
    exact splitChars_ne_nil _ _
  simp only [location, declaredSpace_eq rename, declaredSpace_eq rename', directories] at same
  split at same
  · next empty =>
    split at same
    · next empty' => rw [empty, empty']
    · exact absurd same.symm (some _)
  · split at same
    · exact absurd same (some _)
    · exact split_injective same

/-- **Where names keep their case and end in no digit**, different types without library names are apart. -/
theorem location_ne_of_keys (java : t ≠ .java) (rust : t ≠ .rust) (rename : h.rename = "") (rename' : h'.rename = "")
    (own : t.external? h.key = none) (own' : t.external? h'.key = none) (ends : EndsInNoDigit h.name)
    (ends' : EndsInNoDigit h'.name) (known : h.arity ∈ idx.aritiesOf h.qualified)
    (known' : h'.arity ∈ idx.aritiesOf h'.qualified) (keys : h.key ≠ h'.key) : t.location idx h ≠ t.location idx h' := by
  intro same
  have stem (s : String) : t.baseFileName s = s := by
    cases t with
    | rust => exact absurd rfl rust
    | _ => rfl
  have files : t.fileName idx h = t.fileName idx h' := by
    have both : t.baseFileName (t.fileName idx h) = t.baseFileName (t.fileName idx h') := congrArg Prod.snd same
    rwa [stem, stem] at both
  rw [fileName_eq own rename, fileName_eq own' rename'] at files
  have name : h.name = h'.name := append_digits_inj ends ends' (fun _ => isDigit_of_mem_aritySuffix)
    (fun _ => isDigit_of_mem_aritySuffix) files
  have space := space_eq_of_location java rust rename rename' (congrArg Prod.fst same)
  have qualified : h.qualified = h'.qualified := by rw [TypeHead.qualified, TypeHead.qualified, space, name]
  by_cases arity : h.arity = h'.arity
  · exact keys (by rw [TypeHead.key, TypeHead.key, qualified, arity])
  · have collides := TypeIndex.collides_of_mem known (qualified ▸ known') arity
    have collides' := TypeIndex.collides_of_mem (qualified ▸ known) known' arity
    exact location_ne_of_siblings rename rename' own own' name arity collides collides' same

end Target

namespace Compilation

/-- The paths of all files of a compilation. -/
def paths (c : Compilation) (t : Target) : List String :=
  (c.types.flatMap fun d => t.artifacts c.world.index d.head).map (·.path)

theorem isRegular_head {d : TypeDraft} (h : IsDotted d.name) (rename : d.rename = "") : d.head.IsRegular where
  name := h.splitQualified.1
  space := h.splitQualified.2
  rename := rename

section Load

variable {prelude : List TypeDraft} {file : String} {doc : Document} {c : Compilation}

/-- **What is emitted is what the document declares**, each type once, and the index knows how many type parameters
it is declared with. -/
theorem declared_of_load (load : ofDocument prelude file doc = .ok c) (named : ∀ d, some d ∈ doc.types → d.WellNamed) :
    (∀ d ∈ c.types, ∃ draft, some draft ∈ doc.types ∧ d.head = draft.head ∧
      d.head.arity ∈ c.world.index.aritiesOf d.head.qualified) ∧ c.types.Pairwise fun d e => d.head.key ≠ e.head.key := by
  obtain ⟨w₁, w₂, w₃, w₄, known, own, -, hown, -, -, -, heads, index⟩ := ofDocument_passes load
  obtain ⟨-, arities⟩ := declareTypes_arities named hown
  obtain ⟨drafts, listed, rfl, distinct, -, -⟩ := declareTypes_own named hown
  have emitted : c.types.map (·.head) = drafts.map TypeDraft.head := by
    rw [heads, map_map]
    rfl
  refine ⟨fun d hd => ?_, ?_⟩
  · have mem : d.head ∈ drafts.map TypeDraft.head := emitted ▸ mem_map_of_mem hd
    obtain ⟨draft, hdraft, same⟩ := mem_map.mp mem
    have among : some draft ∈ doc.types := listed ▸ mem_map_of_mem hdraft
    refine ⟨draft, among, same.symm, ?_⟩
    rw [index, ← same]
    exact arities draft among
  · have keys : (drafts.map TypeDraft.head).Pairwise fun h h' => h.key ≠ h'.key := by
      rw [pairwise_map]
      exact pairwise_map.mp distinct
    rw [← emitted, pairwise_map] at keys
    exact keys

/-- **When the paths of a compilation are different.** For every target they are so exactly when no two declared types
have their files in the same place. Types of one name with different numbers of type parameters never have, nor have
any two types for a target that keeps the case of names, if the names end in no digit: unless they have library
names. -/
theorem nodup_paths_iff_locations (load : ofDocument prelude file doc = .ok c)
    (names : ∀ d, some d ∈ doc.types → IsDotted d.name ∧ d.rename = "") (t : Target) :
    ((c.paths t).Nodup ↔
        c.types.Pairwise fun d e => t.location c.world.index d.head ≠ t.location c.world.index e.head) ∧
      (∀ d ∈ c.types, ∀ e ∈ c.types, d.head.qualified = e.head.qualified → d.head.arity ≠ e.head.arity →
        t.external? d.head.key = none → t.external? e.head.key = none →
        t.location c.world.index d.head ≠ t.location c.world.index e.head) ∧
      (t ≠ .java → t ≠ .rust → (∀ d ∈ c.types, t.external? d.head.key = none ∧ Target.EndsInNoDigit d.head.name) →
        (c.paths t).Nodup) := by
  have named (d : TypeDraft) (hd : some d ∈ doc.types) : d.WellNamed := TypeDraft.wellNamed_of_isWords (names d hd).1.isWords
  obtain ⟨declared, keys⟩ := declared_of_load load named
  have regular (d : TypeDecl) (hd : d ∈ c.types) : d.head.IsRegular := by
    obtain ⟨draft, hdraft, same, -⟩ := declared d hd
    exact same ▸ isRegular_head (names draft hdraft).1 (names draft hdraft).2
  have different : (c.paths t).Nodup ↔
      c.types.Pairwise fun d e => t.location c.world.index d.head ≠ t.location c.world.index e.head := by
    have all := t.nodup_paths_iff c.world.index (forall_mem_map.mpr regular)
    rw [flatMap_map, pairwise_map] at all
    exact all
  refine ⟨different, ?_, ?_⟩
  · intro d hd e he qualified arity own own'
    obtain ⟨draft, hdraft, same, known⟩ := declared d hd
    obtain ⟨draft', hdraft', same', known'⟩ := declared e he
    have name : d.head.name = e.head.name := by
      rw [same, same', (named draft hdraft).qualified, (named draft' hdraft').qualified] at qualified
      rw [same, same', TypeDraft.head, TypeDraft.head, qualified]
    have collides := TypeIndex.collides_of_mem known (qualified ▸ known') arity
    have collides' := TypeIndex.collides_of_mem (qualified ▸ known) known' arity
    exact Target.location_ne_of_siblings (regular d hd).rename (regular e he).rename own own' name arity collides
      collides'
  · intro java rust plain
    refine different.mpr (keys.imp_of_mem fun {d e} hd he key => ?_)
    obtain ⟨-, -, -, known⟩ := declared d hd
    obtain ⟨-, -, -, known'⟩ := declared e he
    exact Target.location_ne_of_keys java rust (regular d hd).rename (regular e he).rename (plain d hd).1 (plain e he).1
      (plain d hd).2 (plain e he).2 known known' key

end Load

def plainBox : TypeDraft := { kind := "class", name := "P.Box" }

def genericBox : TypeDraft := { kind := "class", name := "P.Box", typeParameters := ["T"] }

def numberedBox : TypeDraft := { kind := "class", name := "P.Box1" }

/-- The class and the generic class have different paths. -/
theorem nodup_paths_siblings : ∃ c, ofDocument Prelude.types "" { types := [plainBox, genericBox].map some } = .ok c ∧
    (c.paths .csharp).Nodup := by
  have loaded : ((ofDocument Prelude.types "" { types := [plainBox, genericBox].map some }).toOption.any fun c =>
      c.types.all fun d => decide (Target.csharp.external? d.head.key = none ∧ Target.EndsInNoDigit d.head.name)) =
        true := by
    decide +kernel
  have names : ∀ d, some d ∈ [plainBox, genericBox].map some → IsDotted d.name ∧ d.rename = "" := by
    intro d hd
    obtain ⟨d', hd', same⟩ := mem_map.mp hd
    cases same
    have all : ∀ d ∈ [plainBox, genericBox], IsDotted d.name ∧ d.rename = "" := by decide
    exact all d hd'
  cases load : ofDocument Prelude.types "" { types := [plainBox, genericBox].map some } with
  | error fault =>
    rw [load] at loaded
    cases loaded
  | ok c =>
    rw [load] at loaded
    have plain : ∀ d ∈ c.types, Target.csharp.external? d.head.key = none ∧ Target.EndsInNoDigit d.head.name := by
      intro d hd
      exact of_decide_eq_true (all_eq_true.mp loaded d hd)
    exact ⟨c, rfl, (nodup_paths_iff_locations load names .csharp).2.2 (by decide) (by decide) plain⟩

/-- **The generic class has the path of the class with the number in its name.** -/
theorem paths_not_nodup :
    (ofDocument Prelude.types "" { types := [plainBox, genericBox, numberedBox].map some }).toOption.map
      (·.paths .csharp) = some ["P/Box.cs", "P/Box1.cs", "P/Box1.cs"] := by
  decide +kernel

end Compilation

end Polyglot
