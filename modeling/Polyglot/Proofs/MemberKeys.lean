import Polyglot.Proofs.DeclaredMembers
import Polyglot.Proofs.TypeKeys

/-!
# Keys of members

A member to which the document gives no identity is known by its type, its name and the types of its parameters. The key that
is made of these is a flat text again: the name ends at the bracket, and the types of the parameters are read back as the
arguments of a type are.
-/

namespace Polyglot

open List

namespace Ty

theorem key_ne_empty {t : Ty} (some : t.qualified ≠ "") : t.key ≠ "" := by
  intro empty
  cases t with
  | named h => exact some (String.append_eq_empty_iff.mp empty).1
  | closed h args base interfaces => exact some (String.append_eq_empty_iff.mp empty).1
  | array e => exact absurd (String.append_eq_empty_iff.mp empty).2 (by decide)
  | param name => exact absurd (String.append_eq_empty_iff.mp empty).1 (by decide)
  | primitive p => exact absurd (String.append_eq_empty_iff.mp empty).1 (by decide)
  | _ => exact absurd empty (by decide)

/-- A key that stands in a list of types. -/
structure IsItem (t : Ty) : Prop where
  legible : Legible t
  key : t.key ≠ ""

theorem join_ne_empty {t : Ty} {ts : List Ty} (some : t.key ≠ "") : Text.join "," ((t :: ts).map key) ≠ "" := by
  intro empty
  cases ts with
  | nil => exact some empty
  | cons u us =>
    exact some (String.append_eq_empty_iff.mp (String.append_eq_empty_iff.mp empty).1).1

/-- **A list of types is read in one way.** -/
theorem keys_eq_of_join_eq {ts us : List Ty} (ht : ∀ t ∈ ts, IsItem t) (hu : ∀ u ∈ us, IsItem u)
    (same : Text.join "," (ts.map key) = Text.join "," (us.map key)) : ts.map key = us.map key := by
  cases ts with
  | nil =>
    cases us with
    | nil => rfl
    | cons u us => exact absurd same.symm (join_ne_empty (hu u mem_cons_self).key)
  | cons t ts =>
    cases us with
    | nil => exact absurd same (join_ne_empty (ht t mem_cons_self).key)
    | cons u us =>
      have closed : (Text.join "," ((t :: ts).map key)).toList ++ ['>'] = (Text.join "," ((u :: us).map key)).toList ++ ['>'] := by
        rw [same]
      obtain ⟨length, alike, -⟩ := args_inj (fun t h => readsBack_of_legible (ht t h).legible) (fun u h => (hu u h).legible)
        (cons_ne_nil _ _) (cons_ne_nil _ _) closed
      refine map_eq_map_of_forall₂ (forall₂_iff_zip.mpr ⟨length, fun hp => key_eq_of_alike (alike _ hp) ?_ ?_⟩)
      · exact (ht _ (of_mem_zip hp).1).legible
      · exact (hu _ (of_mem_zip hp).2).legible

end Ty

def Symbol.parameterTypes (s : Symbol) : List String := s.parameters.map (·.type.key)

theorem Symbol.parameterTypes_eq (s : Symbol) : s.parameterTypes = (s.parameters.map (·.type)).map Ty.key := by
  rw [map_map]
  rfl

namespace Member

/-- **Two members that are told apart** in the source: by their names, or, if both are methods or both are constructors, by the
types of their parameters. -/
def Differs (m o : Member) : Prop :=
  m.symbol.name ≠ o.symbol.name ∨
    m.kind = o.kind ∧ (m.kind = .method ∨ m.kind = .constructor) ∧ m.symbol.parameterTypes ≠ o.symbol.parameterTypes

instance (m o : Member) : Decidable (m.Differs o) := inferInstanceAs (Decidable (_ ∨ _ ∧ _ ∧ _))

end Member

/-- **A class or a structure as it stands in a source**: it has no enumerated values, names are names, no member is renamed, no
two members are the same, and an identity that the document gives belongs to one member only. -/
structure TypeDecl.IsSource (d : TypeDecl) : Prop where
  values : d.values = []
  params : ∀ p ∈ d.head.params, IsWords p
  names : ∀ m ∈ d.members, m.kind ≠ .constructor → Text.IsName m.symbol.name.toList
  memberParams : ∀ m ∈ d.members, ∀ p ∈ m.symbol.typeParameters, IsWords p
  renames : ∀ m ∈ d.members, m.symbol.rename = ""
  identities : d.members.Pairwise fun m o => m.symbol.id ≠ "" ∨ o.symbol.id ≠ "" → m.symbol.key ≠ o.symbol.key
  differ : d.members.Pairwise Member.Differs

instance (d : TypeDecl) : Decidable d.IsSource :=
  decidable_of_iff
    (d.values = [] ∧ (∀ p ∈ d.head.params, IsWords p) ∧
      (∀ m ∈ d.members, m.kind ≠ .constructor → Text.IsName m.symbol.name.toList) ∧
      (∀ m ∈ d.members, ∀ p ∈ m.symbol.typeParameters, IsWords p) ∧ (∀ m ∈ d.members, m.symbol.rename = "") ∧
      (d.members.Pairwise fun m o => m.symbol.id ≠ "" ∨ o.symbol.id ≠ "" → m.symbol.key ≠ o.symbol.key) ∧
      d.members.Pairwise Member.Differs)
    ⟨fun ⟨values, params, names, memberParams, renames, identities, differ⟩ =>
        ⟨values, params, names, memberParams, renames, identities, differ⟩,
      fun h => ⟨h.values, h.params, h.names, h.memberParams, h.renames, h.identities, h.differ⟩⟩

namespace Compilation

open Ty

variable {file : String} {doc : Document} {c : Compilation} {d : TypeDecl}

variable {params : List String} {t : Ty}

/-- What a type expression means has a key, if all types of the index have names. -/
theorem key_ne_empty_of_resolve {s : TypeExpr.Scope} {e : TypeExpr} (sound : s.index.Sound)
    (named : ∀ k t, s.index.byKey.lookup k = some t → t.qualified ≠ "") (plain : e.PlainNames)
    (run : TypeExpr.resolve s e = .ok t) : t.key ≠ "" := by
  obtain ⟨name, args, arrays⟩ := e
  obtain ⟨u, rfl, resolved⟩ := TypeExpr.resolve_cases run
  have some : u.key ≠ "" := by
    cases plain with
    | mk plain _ =>
      cases resolved with
      | type found _ =>
        rcases TypeExpr.referent?_type plain found with ⟨rfl, -⟩ | short | ⟨k, row⟩
        · exact fun empty => absurd (String.append_eq_empty_iff.mp empty).1 (by decide)
        · unfold Ty.alias? at short
          split at short <;> cases short <;> decide
        · exact key_ne_empty (named k u row)
      | generic found _ made =>
        obtain ⟨known, -, -⟩ := TypeExpr.referent?_proper sound plain found
        obtain ⟨base, interfaces, rfl⟩ := TypeExpr.instantiate?_eq_some made
        exact fun empty => named _ _ known (String.append_eq_empty_iff.mp empty).1
  intro empty
  have chars := toList_key_arraysOf arrays u
  rw [empty] at chars
  exact some (String.toList_injective (append_eq_nil_iff.mp chars.symm).1)

/-- A type that is read in a compilation has a key that can stand in a list. -/
theorem IsRead.isItem (load : ofDocument Prelude.types file doc = .ok c)
    (names : ∀ d, some d ∈ doc.externals ++ doc.types → IsWords d.name) (words : ∀ p ∈ params, IsWords p)
    (isRead : IsRead c.world.index params t) : IsItem t := by
  obtain ⟨s, x, index, rfl, read⟩ := isRead
  obtain ⟨sound, rows⟩ := index_of_load load names
  have entered : ∀ d : TypeDraft, IsWords d.name → (Ty.named d.head).qualified ≠ "" := by
    intro d words empty
    rw [show (Ty.named d.head).qualified = d.name from (TypeDraft.wellNamed_of_isWords words).qualified] at empty
    rw [empty] at words
    exact absurd words (by decide)
  obtain ⟨-, named⟩ := rows_of_load (P := fun t => t.qualified ≠ "") load names (by decide) entered
  obtain ⟨e, -, plain, means⟩ := TypeExpr.read_eq_ok read
  rw [← index] at sound rows named
  exact ⟨TypeExpr.legible_resolve sound rows (fun p hp => unmarked_of_isWords (words p hp)) plain means,
    key_ne_empty_of_resolve sound named plain means⟩

/-! ## Keys -/

/-- What follows the name in the key of a symbol. -/
def signatureText (s : Symbol) : String :=
  if s.isCallable then "(" ++ Text.join "," s.parameterTypes ++ ")" else ""

theorem beginsWith_signatureText (s : Symbol) : BeginsWith ['('] (signatureText s).toList := by
  unfold signatureText
  split
  all_goals simp [BeginsWith]

/-- A name without a bracket. -/
theorem bracket_not_mem {idx : TypeIndex} {m : Member} (entered : IsEntered idx t params m.kind.symbolKind m.symbol)
    (isName : m.kind ≠ .constructor → Text.IsName m.symbol.name.toList) : ∀ c ∈ m.symbol.name.toList, c ∉ ['('] := by
  intro c hc bracket
  rw [mem_singleton.mp bracket] at hc
  by_cases kind : m.kind = .constructor
  · rw [entered.isNamed (by rw [kind]; rfl)] at hc
    exact absurd hc (by decide)
  · exact absurd ((isName kind).1.2 _ hc) (by decide)

/-- **No two members of a type have the same key.** -/
theorem nodup_keys (load : ofDocument Prelude.types file doc = .ok c)
    (names : ∀ d, some d ∈ doc.externals ++ doc.types → IsWords d.name) (hd : d ∈ c.types) (source : d.IsSource) :
    (d.members.map (·.symbol.key)).Nodup := by
  have wellNamed : ∀ d, some d ∈ doc.types → d.WellNamed :=
    fun d hd => TypeDraft.wellNamed_of_isWords (names d (mem_append_right _ hd))
  have entered := (listed_of_load wellNamed load hd).entered
  have items : ∀ m ∈ d.members, ∀ t ∈ m.symbol.parameters.map (·.type), IsItem t := by
    intro m hm t ht
    obtain ⟨p, hp, rfl⟩ := mem_map.mp ht
    refine ((entered m hm).isRead p hp).isItem load names fun q hq => ?_
    exact (mem_append.mp hq).elim (source.params q) (source.memberParams m hm q)
  rw [Nodup, pairwise_map]
  refine (source.identities.and source.differ).imp_of_mem fun {m o} hm ho differs same => ?_
  obtain ⟨identity, differ⟩ := differs
  -- without an identity the keys are made of the same owner, the names and the types of the parameters
  by_cases given : m.symbol.id ≠ "" ∨ o.symbol.id ≠ ""
  · exact identity given same
  · rw [not_or, not_not, not_not] at given
    have text : m.symbol.name ++ signatureText m.symbol = o.symbol.name ++ signatureText o.symbol := by
      rw [Symbol.key, Symbol.key, given.1, given.2, (entered m hm).container, (entered o ho).container] at same
      simp only [ne_eq, not_true_eq_false, if_false, String.append_assoc, String.append_right_inj] at same
      exact same
    have chars := congrArg String.toList text
    rw [String.toList_append, String.toList_append] at chars
    obtain ⟨name, signature⟩ := append_marks_inj (bracket_not_mem (entered m hm) (source.names m hm))
      (bracket_not_mem (entered o ho) (source.names o ho)) (beginsWith_signatureText _) (beginsWith_signatureText _) chars
    rcases differ with other | ⟨kind, overloaded, types⟩
    · exact other name
    · have callable : m.symbol.isCallable = true ∧ o.symbol.isCallable = true := by
        rw [Symbol.isCallable, Symbol.isCallable, (entered m hm).kind, (entered o ho).kind, ← kind]
        rcases overloaded with is | is <;> rw [is] <;> decide
      have texts := String.toList_injective signature
      rw [signatureText, signatureText, if_pos callable.1, if_pos callable.2, String.append_left_inj,
        String.append_right_inj, Symbol.parameterTypes_eq, Symbol.parameterTypes_eq] at texts
      rw [Symbol.parameterTypes_eq, Symbol.parameterTypes_eq] at types
      exact types (keys_eq_of_join_eq (items m hm) (items o ho) texts)

end Compilation

end Polyglot
