import Polyglot.Prelude
import Polyglot.Proofs.Passes
import Polyglot.Proofs.Supertypes

/-!
# Instantiations that end

Putting arguments into the supertypes of a definition makes the types that they apply anew, and that may go on forever. One
application *mentions* another when it makes the other. An instantiation ends exactly when no chain of mentions comes back.
Inheritance without cycles is not enough: a class may mention itself in an argument of its interface.
-/

namespace Polyglot

open List Relation

/-! ## Applications -/

namespace Ty

mutual

def applied : Ty → List (TypeHead × Nat)
  | array e => applied e
  | closed h args _ _ => (if args.isEmpty then [] else [(h, args.length)]) ++ appliedAll args
  | _ => []

def appliedAll : List Ty → List (TypeHead × Nat)
  | [] => []
  | t :: ts => applied t ++ appliedAll ts

end

variable {close : TypeHead → List Ty → Option Ty} {ends : TypeHead × Nat → Prop} {env : TypeEnv}

mutual

/-- **Arguments are put into a type** exactly when all applications in it can be made anew. -/
theorem substituteWith_isSome_iff (made : ∀ h args, (close h args).isSome ↔ ends (h, args.length)) :
    (t : Ty) → ((substituteWith close env t).isSome ↔ ∀ a ∈ t.applied, ends a)
  | .array e => by
    rw [substituteWith, applied, Option.isSome_map]
    exact substituteWith_isSome_iff made e
  | .closed h args base interfaces => by
    have inside := substituteAllWith_isSome_iff made args
    rw [substituteWith, applied, forall_mem_append, ← inside]
    by_cases bare : args.isEmpty
    · obtain rfl := isEmpty_iff.mp bare
      simp [substituteAllWith]
    · rw [if_neg bare, if_neg bare]
      cases put : substituteAllWith close env args with
      | none => simp
      | some args' =>
        have length := (substituteAllWith_eq_some.mp put).length_eq
        simp [made, length]
  | .void | .null | .object | .dynamic | .string | .primitive _ | .param _ | .named _ => by
    simp [substituteWith, applied]

theorem substituteAllWith_isSome_iff (made : ∀ h args, (close h args).isSome ↔ ends (h, args.length)) :
    (ts : List Ty) → ((substituteAllWith close env ts).isSome ↔ ∀ a ∈ appliedAll ts, ends a)
  | [] => by simp [substituteAllWith, appliedAll]
  | t :: ts => by
    have first := substituteWith_isSome_iff made t
    have rest := substituteAllWith_isSome_iff made ts
    rw [substituteAllWith, appliedAll, forall_mem_append, ← first, ← rest]
    cases substituteWith close env t with
    | none => simp
    | some t => cases substituteAllWith close env ts <;> simp

end

end Ty

/-! ## Mentions -/

namespace Hierarchy

variable {H : Hierarchy} {h : TypeHead} {args : List Ty} {a b : TypeHead × Nat}

/-- **An application mentions another**: the other is made anew for a supertype of its definition. Arguments are put
into supertypes when there are any, and as many as there are parameters. -/
structure Mentions (H : Hierarchy) (a b : TypeHead × Nat) : Prop where
  arity : a.1.params.length = a.2
  filled : a.2 ≠ 0
  inside : ∃ t ∈ Supers.toList (H.supers a.1), b ∈ t.applied

/-- Every chain of mentions that starts at an application has fewer of them. -/
def EndsWithin (H : Hierarchy) : Nat → TypeHead × Nat → Prop
  | 0, _ => False
  | n + 1, a => ∀ b, H.Mentions a b → H.EndsWithin n b

variable {put : Ty → Option Ty} {n : Nat} {rank : String → Nat}

theorem mapM_isSome_iff {ts : List Ty} : (ts.mapM put).isSome ↔ ∀ t ∈ ts, (put t).isSome := by
  induction ts with
  | nil => simp
  | cons t ts ih =>
    rw [mapM_cons, forall_mem_cons, ← ih]
    cases put t with
    | none => simp
    | some u => cases ts.mapM put <;> simp

theorem mapM_base_isSome_iff {base : Option Ty} : (base.mapM put).isSome ↔ ∀ t ∈ base, (put t).isSome := by
  cases base with
  | none => simp
  | some t =>
    change ((put t).map some).isSome ↔ _
    simp

/-- **An instantiation ends within a number of nested steps** exactly when chains of mentions do. -/
theorem instantiateWithin_isSome_iff (n : Nat) (h : TypeHead) (args : List Ty) :
    (H.instantiateWithin n h args).isSome ↔ H.EndsWithin n (h, args.length) := by
  induction n generalizing h args with
  | zero => simp [instantiateWithin, EndsWithin]
  | succ n ih =>
    by_cases arity : h.params.length = args.length
    · let env := TypeEnv.ofParams h.params args
      have empty : env.isEmpty ↔ args.length = 0 := by
        rw [List.isEmpty_iff, ← length_eq_zero_iff]
        simp [env, TypeEnv.ofParams, arity]
      have each (t : Ty) : (H.fillWithin n env t).isSome ↔ (args.length ≠ 0 → ∀ b ∈ t.applied, H.EndsWithin n b) := by
        by_cases none : args.length = 0
        · simp [fillWithin, empty.mpr none, none]
        · rw [← @Ty.substituteWith_isSome_iff _ _ env ih]
          simp [fillWithin, mt empty.mp none, none]
      have whole : ((H.supers h).base.mapM (H.fillWithin n env)).isSome ∧
            ((H.supers h).interfaces.mapM (H.fillWithin n env)).isSome ↔
          ∀ b, H.Mentions (h, args.length) b → H.EndsWithin n b := by
        rw [mapM_base_isSome_iff, mapM_isSome_iff]
        simp only [each]
        constructor
        · rintro ⟨base, interfaces⟩ b ⟨-, filled, t, ht, hb⟩
          rcases mem_append.mp ht with ht | ht
          · exact base t (Option.mem_toList.mp ht) filled b hb
          · exact interfaces t ht filled b hb
        · intro all
          refine ⟨fun t ht filled b hb => all b ⟨arity, filled, t, ?_, hb⟩,
            fun t ht filled b hb => all b ⟨arity, filled, t, ?_, hb⟩⟩
          · exact mem_append_left _ (Option.mem_toList.mpr ht)
          · exact mem_append_right _ ht
      rw [EndsWithin, ← whole, instantiateWithin_succ n arity]
      cases (H.supers h).base.mapM (H.fillWithin n env) with
      | none => simp
      | some base => simp [env]
    · simp only [instantiateWithin, if_neg arity]
      refine iff_of_true rfl ?_
      rintro b ⟨same, -, -⟩
      exact absurd same arity

/-! ## Chains of mentions -/

theorem Mentions.mem_keys (mentions : H.Mentions a b) : a.1.key ∈ H.keys := by
  by_contra absent
  obtain ⟨t, ht, hb⟩ := mentions.inside
  rw [supers_of_not_mem_keys absent, defaultSupers] at ht
  have plain : t.applied = [] := by
    split at ht
    · obtain rfl : t = .named Ty.enumerableHead := by simpa [Supers.toList] using ht
      rfl
    · split at ht
      · obtain rfl : t = .object := by simpa [Supers.toList] using ht
        rfl
      · obtain rfl : t = .object := by simpa [Supers.toList] using ht
        rfl
      · cases ht
  rw [plain] at hb
  cases hb

theorem Mentions.of_key {a' b' : TypeHead × Nat} (key : a.1.key = a'.1.key) (mentions : H.Mentions a b)
    (other : H.Mentions a' b') : H.Mentions a' b :=
  ⟨other.arity, other.filled, supers_eq_of_mem_keys mentions.mem_keys key ▸ mentions.inside⟩

/-- **A chain of mentions comes back** to an application that it has passed. -/
def Endless (H : Hierarchy) (a : TypeHead × Nat) : Prop :=
  ∃ b, ReflTransGen H.Mentions a b ∧ TransGen H.Mentions b b

theorem EndsWithin.mono {m : Nat} (le : m ≤ n) (ends : H.EndsWithin m a) : H.EndsWithin n a := by
  induction m generalizing n a with
  | zero => cases ends
  | succ m ih =>
    obtain ⟨n, rfl⟩ : ∃ k, n = k + 1 := ⟨n - 1, by omega⟩
    exact fun b mentions => ih (Nat.le_of_succ_le_succ le) (ends b mentions)

/-- What is mentioned, at once or through others, ends in fewer steps. -/
theorem EndsWithin.transGen (ends : H.EndsWithin n a) (chain : TransGen H.Mentions a b) :
    ∃ m < n, H.EndsWithin m b := by
  have step {n : Nat} {a b : TypeHead × Nat} (ends : H.EndsWithin n a) (mentions : H.Mentions a b) :
      ∃ m < n, H.EndsWithin m b := by
    cases n with
    | zero => cases ends
    | succ n => exact ⟨n, n.lt_succ_self, ends b mentions⟩
  induction chain with
  | single mentions => exact step ends mentions
  | tail _ mentions ih =>
    obtain ⟨m, lt, ends⟩ := ih
    obtain ⟨k, lt', ends⟩ := step ends mentions
    exact ⟨k, lt'.trans lt, ends⟩

theorem not_endsWithin_of_cycle (cycle : TransGen H.Mentions a a) (n : Nat) : ¬ H.EndsWithin n a := by
  induction n using Nat.strongRecOn with
  | ind n ih =>
    intro ends
    obtain ⟨m, lt, ends⟩ := ends.transGen cycle
    exact ih m lt ends

theorem Endless.not_endsWithin (endless : H.Endless a) (n : Nat) : ¬ H.EndsWithin n a := by
  obtain ⟨b, reach, cycle⟩ := endless
  intro ends
  rcases reflTransGen_iff_eq_or_transGen.mp reach with rfl | chain
  · exact not_endsWithin_of_cycle cycle n ends
  · obtain ⟨m, -, ends⟩ := ends.transGen chain
    exact not_endsWithin_of_cycle cycle m ends

/-- **Chains that never come back are short**: they mention each definition with supertypes at most once. -/
theorem endsWithin_of_not_endless (ends : ¬ H.Endless a) : H.EndsWithin (H.rows.length + 1) a := by
  have source (b c : TypeHead × Nat) (mentions : H.Mentions b c) : b.1.key ∈ H.keys := mentions.mem_keys
  have same (b b' c c' : TypeHead × Nat) (key : b.1.key = b'.1.key) (mentions : H.Mentions b c)
      (other : H.Mentions b' c') : H.Mentions b' c := mentions.of_key key other
  have keeps (b c : TypeHead × Nat) (reach : ReflTransGen H.Mentions a b) (mentions : H.Mentions b c) :
      ReflTransGen H.Mentions a c := reach.tail mentions
  have straight (b : TypeHead × Nat) (reach : ReflTransGen H.Mentions a b) : ¬ TransGen H.Mentions b b :=
    fun cycle => ends ⟨b, reach, cycle⟩
  obtain ⟨rank, bounded, lower⟩ := exists_rank source same keeps straight
  have within (n : Nat) (b : TypeHead × Nat) (reach : ReflTransGen H.Mentions a b) (le : rank b ≤ n) :
      H.EndsWithin (n + 1) b := by
    induction n generalizing b with
    | zero =>
      intro c mentions
      have less := lower b c reach mentions
      omega
    | succ n ih =>
      intro c mentions
      have less := lower b c reach mentions
      exact ih c (reach.tail mentions) (by omega)
  refine within H.rows.length a .refl ?_
  simpa [keys] using bounded a

/-- **An instantiation ends exactly when no chain of mentions comes back**, and one that does not end is given up
rightly: it ends within no number of nested steps. -/
theorem instantiate?_isSome_iff (H : Hierarchy) (h : TypeHead) (args : List Ty) :
    ((H.instantiate? h args).isSome ↔ ¬ H.Endless (h, args.length)) ∧
      (H.instantiate? h args = none ↔ ∀ n, H.instantiateWithin n h args = none) := by
  have ends : (H.instantiate? h args).isSome ↔ ¬ H.Endless (h, args.length) := by
    rw [instantiate?, instantiateWithin_isSome_iff]
    refine ⟨fun within endless => endless.not_endsWithin _ within, fun ends => ?_⟩
    exact (endsWithin_of_not_endless ends).mono (Nat.le_succ _)
  refine ⟨ends, fun never n => ?_, fun never => never _⟩
  rw [← Option.not_isSome_iff_eq_none, instantiateWithin_isSome_iff]
  intro within
  have made := ends.mpr fun endless => endless.not_endsWithin n within
  rw [never] at made
  cases made

/-! ## A definition that is compared with itself -/

/-- One definition inherits from another, whatever the arguments are. -/
def Inherits (H : Hierarchy) (h g : TypeHead) : Prop := ∃ t ∈ Supers.toList (H.supers h), t.head? = some g

def Lowers (rank : String → Nat) (H : Hierarchy) : Prop :=
  ∀ row ∈ H.rows, ∀ t ∈ Supers.toList row.2, ∀ g ∈ t.head?, rank g.key < rank row.1

instance (rank : String → Nat) (H : Hierarchy) : Decidable (H.Lowers rank) :=
  inferInstanceAs (Decidable (∀ row ∈ H.rows, ∀ t ∈ Supers.toList row.2, ∀ g ∈ t.head?, rank g.key < rank row.1))

theorem Inherits.lowers (lowers : H.Lowers rank)
    (sequences : rank Ty.enumerableHead.key < rank Ty.enumerableOfHead.key) {g : TypeHead}
    (inherits : H.Inherits h g) : rank g.key < rank h.key := by
  obtain ⟨t, ht, head⟩ := inherits
  cases found : H.rows.lookup h.key with
  | some s =>
    rw [supers, found, Option.getD_some] at ht
    exact lowers _ (mem_of_lookup found) t ht g head
  | none =>
    rw [supers, found, Option.getD_none, defaultSupers] at ht
    split at ht
    · next same =>
      obtain rfl : t = .named Ty.enumerableHead := by simpa [Supers.toList] using ht
      cases head
      exact same ▸ sequences
    · have object : t = .object := by split at ht <;> simp_all [Supers.toList]
      rw [object] at head
      cases head

theorem not_inherits_itself (lowers : H.Lowers rank)
    (sequences : rank Ty.enumerableHead.key < rank Ty.enumerableOfHead.key) (h : TypeHead) : ¬ TransGen H.Inherits h h := by
  have lower (h g : TypeHead) (_ : True) (inherits : H.Inherits h g) : rank g.key < rank h.key :=
    inherits.lowers lowers sequences
  exact not_transGen_self_of_rank (fun _ _ _ _ => trivial) lower trivial

end Hierarchy

namespace Compilation

def comparable : TypeDraft := { kind := "interface", name := "N.IComparable", typeParameters := ["T"] }

def selfCompared : TypeDraft :=
  { kind := "class", name := "N.Node", typeParameters := ["T"], interfaces := ["IComparable<Node<T>>"] }

/-- Definitions before those that inherit from them; what comes behind is not inherited from. -/
def inheritanceRank (key : String) : Nat :=
  ["System.Collections.IEnumerable", "System.Collections.Generic.IEnumerable`1", "System.Exception",
    "N.IComparable`1"].idxOf key

/-- Does the compilation know the class, with a supertype that is made from the class itself, and does every definition
rank above those that it inherits from? -/
def knowsSelfCompared (c : Compilation) : Bool :=
  (match c.world.index.byKey.lookup selfCompared.head.key with
    | some (.named h) => h = selfCompared.head
    | _ => false) &&
  (Hierarchy.Supers.toList (c.world.hierarchy.supers selfCompared.head)).any (fun t =>
    (selfCompared.head, 1) ∈ t.applied) &&
  c.world.hierarchy.Lowers inheritanceRank

/-- **A class that is compared with itself never ends**: no definition of the compilation inherits from itself, and
yet the class is instantiated within no number of nested steps. -/
theorem instantiateWithin_selfCompared :
    ∃ c, ofDocument Prelude.types "" { types := [comparable, selfCompared].map some } = .ok c ∧
      c.world.index.Knows selfCompared.head ∧ selfCompared.head.params.length = [Ty.int].length ∧
      (∀ h, ¬ TransGen c.world.hierarchy.Inherits h h) ∧
      ∀ n, c.world.hierarchy.instantiateWithin n selfCompared.head [.int] = none := by
  have loads : (ofDocument Prelude.types "" { types := [comparable, selfCompared].map some }).toOption.any
      knowsSelfCompared = true := by decide +kernel
  cases load : ofDocument Prelude.types "" { types := [comparable, selfCompared].map some } with
  | error f =>
    rw [load] at loads
    cases loads
  | ok c =>
    rw [load] at loads
    have checked : knowsSelfCompared c = true := loads
    simp only [knowsSelfCompared, Bool.and_eq_true, decide_eq_true_eq, any_eq_true] at checked
    obtain ⟨⟨known, itself⟩, lowers⟩ := checked
    have mentions : c.world.hierarchy.Mentions (selfCompared.head, 1) (selfCompared.head, 1) :=
      ⟨rfl, Nat.one_ne_zero, itself⟩
    refine ⟨c, rfl, ?_, rfl, Hierarchy.not_inherits_itself lowers (by decide), fun n => ?_⟩
    · split at known
      · next h found =>
        rw [TypeIndex.Knows, found, of_decide_eq_true known]
      · cases known
    · rw [← Option.not_isSome_iff_eq_none, Hierarchy.instantiateWithin_isSome_iff]
      exact Hierarchy.not_endsWithin_of_cycle (.single mentions) n

end Compilation

end Polyglot
