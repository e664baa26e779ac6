import Polyglot.Prelude
import Polyglot.Proofs.DeclaredMembers

/-!
# Names of declared types

A type without type parameters is written by its simple name inside its own namespace. The name is looked up there
before anything else, so it means the type; a type outside all namespaces comes last, after the imported ones, and its
name means it unless one of these has a type of that name.
-/

namespace Polyglot

open List

/-! ## Names that mean a definition -/

namespace TypeHead

/-- A definition that a simple name can stand for, where some type parameters are in scope: it has no parameters of its
own, the parser reads its name, and nothing else goes by it. -/
structure IsNameable (h : TypeHead) (params : List String) : Prop where
  plain : h.params = []
  name : TypeExpr.IsRun TypeExpr.isReadable h.name.toList
  long : Ty.alias? h.name = none
  free : h.name ∉ params

theorem IsNameable.key {h : TypeHead} {params : List String} (nameable : h.IsNameable params) : h.key = h.qualified := by
  rw [TypeHead.key, TypeHead.arity, nameable.plain]
  rfl

end TypeHead

namespace TypeExpr

variable {name : String}

theorem parse_name (isName : IsRun isReadable name.toList) : parse name = .ok ⟨name, [], 0⟩ := by
  rw [parse_eq_ok_iff]
  have written : Written isReadable ([] ++ name.toList ++ []) [⟨String.ofList name.toList, [], 0⟩] [] :=
    .plain isGap_nil isName .none
  rw [String.ofList_toList, append_nil] at written
  exact ⟨[], isGap_nil, written⟩

/-- A name that is no type parameter and no short name means what the index resolves it to. -/
theorem read_name {s : Scope} {t : Ty} (isName : IsRun isReadable name.toList) (long : Ty.alias? name = none)
    (free : name ∉ s.params) : read s name = .ok t ↔ s.index.resolve? s.usings name 0 s.space = some t := by
  have unlisted : s.params.contains name = false := by simpa using free
  simp only [read, parse_name isName, resolve, unlisted, long]
  cases s.index.resolve? s.usings name 0 s.space with
  | none => simp [throw, throwThe, MonadExceptOf.throw]
  | some u =>
    change (Except.ok u : Except Fault Ty) = .ok t ↔ some u = some t
    rw [Except.ok.injEq, Option.some.injEq]

end TypeExpr

namespace TypeIndex

variable {idx : TypeIndex} {usings : List String} {name space : String} {t : Ty}

/-- Inside a namespace, its own definitions come first. -/
theorem resolve?_inner (inside : space ≠ "") (found : idx.find? (qualify space name) 0 = some t) :
    idx.resolve? usings name 0 space = some t := by
  have here : qualify space name = space ++ "." ++ name := by rw [qualify, if_neg inside]
  rw [here] at found
  rw [resolve?, enclosing, if_neg inside, cons_append, findSome?_cons, found]

/-- Outside all namespaces, the imported ones come first. -/
theorem resolve?_global (keyed : Compilation.Keyed idx) (own : t.definitionKey = name) (found : idx.find? name 0 = some t) :
    idx.resolve? usings name 0 "" = some t ↔ ∀ u ∈ usings, idx.find? (u ++ "." ++ name) 0 = none := by
  rw [resolve?, enclosing, if_pos rfl, nil_append]
  cases imported : usings.findSome? fun s => idx.find? (s ++ "." ++ name) 0 with
  | none => exact ⟨fun _ => findSome?_eq_none_iff.mp imported, fun _ => found⟩
  | some t' =>
    obtain ⟨u, hu, found'⟩ := exists_of_findSome?_eq_some imported
    constructor
    · intro same
      cases same
      have long : (u ++ "." ++ name).length = name.length := congrArg String.length ((keyed _ _ found').symm.trans own)
      rw [String.length_append, String.length_append] at long
      have dot : ".".length = 1 := rfl
      omega
    · intro unshadowed
      rw [unshadowed u hu] at found'
      cases found'

end TypeIndex

/-- **Where the names of a definition lead to it**: in its namespace, or outside all namespaces if no imported one has a
definition of that name without type parameters. -/
def World.Reaches (w : World) (h : TypeHead) : Prop :=
  h.space ≠ "" ∨ ∀ u ∈ w.usings, w.index.find? (u ++ "." ++ h.name) 0 = none

/-! ## The index of a compilation -/

namespace Compilation

variable {w w' : World} {types : List (Option TypeDraft)} {es : List Entry}

/-- No key has a dot at its start and nowhere else. -/
def Undotted (idx : TypeIndex) : Prop := ∀ k rest, idx.byKey.lookup k ≠ none → k.toList = '.' :: rest → '.' ∈ rest

theorem undotted_empty : Undotted {} := by
  intro k rest known dotted
  have undotted : ∀ row ∈ Ty.builtins, row.1.toList.head? ≠ some '.' := by decide
  obtain ⟨t, found⟩ := Option.ne_none_iff_exists'.mp known
  exact absurd (congrArg head? dotted) (undotted _ (mem_of_lookup found))

theorem Undotted.add {idx : TypeIndex} (undotted : Undotted idx) (d : TypeDraft) : Undotted (idx.add d.head) := by
  intro k rest known dotted
  rw [TypeIndex.lookup_add] at known
  split at known
  · next own =>
    have free : '.' ∉ d.head.name.toList := dot_not_mem_splitQualified d.name
    have key : ∃ tail, k.toList = d.head.qualified.toList ++ tail ∧ tail.head? ≠ some '.' := by
      rw [own, TypeHead.key, arityKey]
      split
      · exact ⟨[], (append_nil _).symm, by simp⟩
      · exact ⟨_, by rw [String.append_assoc, String.toList_append], by simp⟩
    obtain ⟨tail, key, behind⟩ := key
    rw [key, TypeHead.qualified, qualify] at dotted
    split at dotted
    · cases name : d.head.name.toList <;> simp_all
    · next inside =>
      cases space : d.head.space.toList with
      | nil => exact absurd (String.toList_eq_nil_iff.mp space) inside
      | cons c cs =>
        simp only [String.toList_append, space, cons_append, cons.injEq] at dotted
        simp [← dotted.2]
  · exact undotted k rest known dotted

/-- A declaration without type parameters leaves a definition with its key behind, be it new or known. -/
theorem declareTypes_leaves {isExternal : Bool} (keyed : Keyed w.index) (undotted : Undotted w.index) {d : TypeDraft}
    (hd : some d ∈ types) (plain : d.typeParameters = []) (run : declareTypes isExternal types w = .ok (w', es)) :
    w'.index.byKey.lookup d.head.key ≠ none := by
  induction types generalizing w es with
  | nil => cases hd
  | cons first types ih =>
    cases first with
    | none => cases run
    | some d' =>
      obtain ⟨⟨w₁, e⟩, here, run⟩ := bind_eq_ok.mp run
      obtain ⟨⟨w₂, es'⟩, rest, run⟩ := bind_eq_ok.mp run
      cases run
      obtain ⟨entered, -⟩ := declareType_enters keyed here
      rcases mem_cons.mp hd with same | later
      · cases same
        refine (declareTypes_enters entered.keyed rest).1.keeps _ ?_
        rcases declareType_eq_ok here with ⟨t, found, -, rfl, -⟩ | ⟨-, rfl, -⟩
        · have known := Option.ne_none_iff_exists'.mpr ⟨t, found⟩
          rcases qualify_splitQualified_or d.name with whole | ⟨rest, dotted, alone⟩
          · have key : d.head.key = arityKey d.name d.typeParameters.length :=
              congrArg (arityKey · d.typeParameters.length) whole
            rwa [key]
          · rw [plain] at known
            exact absurd (undotted _ _ known dotted) alone
        · exact Option.ne_none_iff_exists'.mpr ⟨_, TypeIndex.knows_add _ _⟩
      · refine ih entered.keyed ?_ later rest
        rcases declareType_eq_ok here with ⟨-, -, -, rfl, -⟩ | ⟨-, rfl, -⟩
        · exact undotted
        · exact undotted.add d'

/-- A type of the document itself is found by its key, unless a later one with that key has replaced it. -/
theorem declareTypes_found (run : declareTypes false types w = .ok (w', es)) {e : Entry} (he : e ∈ es) :
    ∃ o ∈ es, o.head.key = e.head.key ∧ w'.index.byKey.lookup e.head.key = some (.named o.head) := by
  obtain ⟨drafts, -, steps⟩ := declareTypes_threaded run
  clear run
  -- over the entries that are still to come: one of them has the key, or the index keeps what it has under it
  have found (k : String) : (∃ o ∈ es, o.head.key = k ∧ w'.index.byKey.lookup k = some (.named o.head)) ∨
      (∀ o ∈ es, o.head.key ≠ k) ∧ w'.index.byKey.lookup k = w.index.byKey.lookup k := by
    clear he
    induction steps with
    | nil w => exact .inr ⟨fun _ mem => absurd mem not_mem_nil, rfl⟩
    | @cons w _ w' d e drafts es here _ ih =>
      rcases declareType_eq_ok here with ⟨t, -, external, -, -⟩ | ⟨-, rfl, rfl⟩
      · cases external
      · rcases ih with ⟨o, ho, key, lookup⟩ | ⟨others, lookup⟩
        · exact .inl ⟨o, mem_cons_of_mem _ ho, key, lookup⟩
        · rw [TypeIndex.lookup_add] at lookup
          by_cases own : k = d.head.key
          · rw [if_pos own] at lookup
            exact .inl ⟨_, mem_cons_self, own.symm, lookup⟩
          · rw [if_neg own] at lookup
            exact .inr ⟨forall_mem_cons.mpr ⟨Ne.symm own, others⟩, lookup⟩
  rcases found e.head.key with found | ⟨others, -⟩
  · exact found
  · exact absurd rfl (others e he)

section Load

variable {prelude : List TypeDraft} {file : String} {doc : Document} {c : Compilation}

/-- What loading leaves in the index. -/
theorem keyed_of_load (load : ofDocument prelude file doc = .ok c) : Keyed c.world.index ∧
      (∀ d ∈ c.types, ∃ o ∈ c.types, o.head.key = d.head.key ∧ c.world.index.byKey.lookup d.head.key = some (.named o.head)) ∧
      ∀ d, some d ∈ doc.externals → d.typeParameters = [] → c.world.index.byKey.lookup d.head.key ≠ none := by
  obtain ⟨w₁, w₂, w₃, w₄, known, own, hknown, hown, -, -, -, heads, index⟩ := ofDocument_passes load
  obtain ⟨first, -⟩ := declareTypes_enters keyed_empty hknown
  obtain ⟨later, -⟩ := declareTypes_enters first.keyed hown
  rw [index]
  refine ⟨later.keyed, ?_, ?_⟩
  · intro d hd
    have mem : d.head ∈ own.map Entry.head := heads ▸ mem_map_of_mem hd
    obtain ⟨e, he, same⟩ := mem_map.mp mem
    obtain ⟨o, ho, key, found⟩ := declareTypes_found hown he
    have emitted : o.head ∈ c.types.map (·.head) := heads ▸ mem_map_of_mem ho
    obtain ⟨o', ho', same'⟩ := mem_map.mp emitted
    rw [← same]
    exact ⟨o', ho', by rw [same', key], by rw [same', found]⟩
  · intro d hd plain
    exact later.keeps _ (declareTypes_leaves keyed_empty undotted_empty (mem_append_right _ hd) plain hknown)

/-- **Where the simple name of a definition in the index is read as it.** -/
theorem read_name_iff {w : World} {params : List String} {h : TypeHead} {t : Ty} (keyed : Keyed w.index)
    (nameable : h.IsNameable params) (found : w.index.byKey.lookup h.key = some t) :
    TypeExpr.read (scopeIn w params h.space) h.name = .ok t ↔ w.Reaches h := by
  have own : t.definitionKey = h.key := keyed _ _ found
  rw [nameable.key] at own found
  refine (TypeExpr.read_name nameable.name nameable.long nameable.free).trans ?_
  change w.index.resolve? w.usings h.name 0 h.space = some t ↔ _
  by_cases inside : h.space = ""
  · rw [TypeHead.qualified, qualify, if_pos inside] at own found
    rw [inside]
    refine (TypeIndex.resolve?_global keyed own found).trans ⟨.inr, fun reaches => reaches.resolve_left ?_⟩
    exact fun outside => outside inside
  · exact ⟨fun _ => .inl inside, fun _ => TypeIndex.resolve?_inner inside found⟩

/-- **Declared types can be referred to.** Whatever type parameters are in scope, the simple name of a type that the
document declares is read, in the namespace of the type, as that type, exactly when it is in a namespace or no
imported namespace has a type of that name. The type is to be one that a simple name can stand for, and its key is to be
its own. The simple name of a type that is declared to be elsewhere is then read as the definition of its key. -/
theorem declared_names_read (load : ofDocument prelude file doc = .ok c) (params : List String) :
    (∀ d ∈ c.types, d.head.IsNameable params →
      (∀ o ∈ c.types, o.head.key = d.head.key → o.head = d.head) →
        (TypeExpr.read (scopeIn c.world params d.head.space) d.head.name = .ok (.named d.head) ↔
          c.world.Reaches d.head)) ∧
      ∀ d, some d ∈ doc.externals → d.head.IsNameable params → c.world.Reaches d.head →
        ∃ t, t.definitionKey = d.head.key ∧
          TypeExpr.read (scopeIn c.world params d.head.space) d.head.name = .ok t := by
  obtain ⟨keyed, own, external⟩ := keyed_of_load load
  constructor
  · intro d hd nameable single
    obtain ⟨o, ho, key, found⟩ := own d hd
    rw [single o ho key] at found
    exact read_name_iff keyed nameable found
  · intro d hd nameable reaches
    obtain ⟨t, found⟩ := Option.ne_none_iff_exists'.mp (external d hd nameable.plain)
    exact ⟨t, keyed _ _ found, (read_name_iff keyed nameable found).mpr reaches⟩

end Load

def innerDraft : TypeDraft := { kind := "class", name := "N.Inner" }

/-- A class of a namespace is read by its simple name there. -/
theorem declared_names_read_inner : ∃ c d, ofDocument Prelude.types "" { types := [some innerDraft] } = .ok c ∧
    d ∈ c.types ∧ TypeExpr.read (scopeIn c.world ["T"] "N") "Inner" = .ok (.named d.head) := by
  obtain ⟨c, load, heads⟩ : ∃ c, ofDocument Prelude.types "" { types := [some innerDraft] } = .ok c ∧
      c.types.map (·.head) = [innerDraft.head] := exists_ok_of_decide (by decide +kernel)
  obtain ⟨d, types, head⟩ := map_eq_singleton_iff.mp heads
  have single : ∀ o ∈ c.types, o = d := by
    rw [types]
    exact fun o ho => mem_singleton.mp ho
  have mem : d ∈ c.types := types ▸ mem_singleton_self d
  have nameable : d.head.IsNameable ["T"] := by
    rw [head]
    exact ⟨rfl, ⟨by decide, all_eq_true.mp (by decide)⟩, rfl, by decide⟩
  have reaches : c.world.Reaches d.head := by
    rw [head]
    exact .inl (by decide)
  have read := ((declared_names_read load ["T"]).1 d mem nameable fun o ho _ => congrArg _ (single o ho)).mpr reaches
  rw [head] at read
  exact ⟨c, d, load, mem, head ▸ read⟩

def shadowedDraft : TypeDraft := { kind := "class", name := "Exception" }

def accentedDraft : TypeDraft := { kind := "class", name := "Café" }

/-- **Names that do not lead to their types**: outside all namespaces, the name of a type of an imported namespace means
that one; and a letter outside ASCII is not read. Both names consist of letters and are no short names. -/
theorem declared_names_unread : ∃ c d e,
    ofDocument Prelude.types "" { types := [some shadowedDraft, some accentedDraft] } = .ok c ∧
    d ∈ c.types ∧ d.head = shadowedDraft.head ∧ e ∈ c.types ∧ e.head = accentedDraft.head ∧
    (∀ h ∈ [d.head, e.head], h.params = [] ∧ h.space = "" ∧ Ty.alias? h.name = none ∧
      ∀ ch ∈ h.name.toList, Text.isUpper ch ∨ Text.isLower ch) ∧
    TypeExpr.read (scopeIn c.world [] d.head.space) d.head.name ≠ .ok (.named d.head) ∧
    TypeExpr.read (scopeIn c.world [] e.head.space) e.head.name ≠ .ok (.named e.head) := by
  obtain ⟨c, load, heads, shadowed, accented⟩ : ∃ c,
      ofDocument Prelude.types "" { types := [some shadowedDraft, some accentedDraft] } = .ok c ∧
      c.types.map (·.head) = [shadowedDraft.head, accentedDraft.head] ∧
      (TypeExpr.read (scopeIn c.world [] "") "Exception").toOption.map Ty.key = some "System.Exception" ∧
      (TypeExpr.read (scopeIn c.world [] "") "Café").toOption.map Ty.key = none :=
    exists_ok_of_decide (by decide +kernel)
  obtain ⟨d, rest, types, hd, more⟩ := map_eq_cons_iff.mp heads
  obtain ⟨e, rfl, he⟩ := map_eq_singleton_iff.mp more
  refine ⟨c, d, e, load, by rw [types]; simp, hd, by rw [types]; simp, he, ?_⟩
  rw [hd, he]
  have letters {name : String} (all : name.toList.all (fun ch => Text.isUpper ch || Text.isLower ch) = true) :
      ∀ ch ∈ name.toList, Text.isUpper ch ∨ Text.isLower ch := by
    simpa using all
  refine ⟨forall_mem_cons.mpr ⟨⟨rfl, rfl, by decide, letters (by decide)⟩, forall_mem_singleton.mpr ?_⟩, ?_, ?_⟩
  · exact ⟨rfl, rfl, by decide, letters (by decide)⟩
  all_goals intro read
  · have key := congrArg (·.toOption.map Ty.key) read
    rw [show shadowedDraft.head.space = "" from rfl, show shadowedDraft.head.name = "Exception" from rfl, shadowed] at key
    exact absurd key (by decide +kernel)
  · have key := congrArg (·.toOption.map Ty.key) read
    rw [show accentedDraft.head.space = "" from rfl, show accentedDraft.head.name = "Café" from rfl, accented] at key
    cases key

end Compilation

end Polyglot
