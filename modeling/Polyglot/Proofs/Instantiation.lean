import Polyglot.Proofs.Keys
import Polyglot.Type.Hierarchy

/-!
# What an instantiation depends on

A closed type carries the supertypes that its definition had when it was made; its *shape* is what is left without them. When
arguments are put into the supertypes of a definition, closed types among them are made anew, so only shapes count: two
hierarchies whose definitions have supertypes of the same shapes instantiate them alike.
-/

namespace Polyglot

open List

namespace Ty

mutual

/-- **The shape of a type**: the type without the supertypes that closed types in it carry. -/
def shape : Ty → Ty
  | array e => array (shape e)
  | closed h args _ _ => closed h (shapes args) none []
  | t => t

/-- The shapes of several types. -/
def shapes : List Ty → List Ty
  | [] => []
  | t :: ts => shape t :: shapes ts

end

theorem shapes_eq_map (ts : List Ty) : shapes ts = ts.map shape := by
  induction ts with
  | nil => rfl
  | cons t ts ih => rw [shapes, ih, map_cons]

/-- **A proper type of an index**: its definitions are those of the index, generic ones are applied to as many
arguments as they have parameters, and others stand for themselves. -/
inductive Proper (idx : TypeIndex) : Ty → Prop where
  | atom {t : Ty} (declared : t.head? = none) (plain : t.isArray = false) : Proper idx t
  | array {e : Ty} (elem : Proper idx e) : Proper idx (.array e)
  | named {h : TypeHead} (known : idx.Knows h) (params : h.params = []) : Proper idx (.named h)
  | closed {h : TypeHead} {args : List Ty} {base : Option Ty} {interfaces : List Ty} (known : idx.Knows h)
      (nonempty : args ≠ []) (arity : h.params.length = args.length) (properArgs : ∀ a ∈ args, Proper idx a)
      (properBase : ∀ b ∈ base, Proper idx b) (properInterfaces : ∀ i ∈ interfaces, Proper idx i) :
      Proper idx (.closed h args base interfaces)

variable {t : Ty}

theorem shape_of_atom (declared : t.head? = none) (plain : t.isArray = false) : t.shape = t := by
  cases t with
  | array e => cases plain
  | named h => cases declared
  | closed h args base interfaces => cases declared
  | _ => rfl

variable {idx : TypeIndex} {close close' : TypeHead → List Ty → Option Ty} {env : TypeEnv}

/-! ## Putting arguments in -/

theorem substituteAllWith_congr {env' : TypeEnv} {ts us : List Ty}
    (same : Forall₂ (fun t u => substituteWith close env t = substituteWith close' env' u) ts us) :
    substituteAllWith close env ts = substituteAllWith close' env' us := by
  induction same with
  | nil => rfl
  | cons here _ ih => rw [substituteAllWith, substituteAllWith, here, ih]

theorem substituteAllWith_eq_some {ts us : List Ty} : substituteAllWith close env ts = some us ↔
      Forall₂ (fun t u => substituteWith close env t = some u) ts us := by
  induction ts generalizing us with
  | nil =>
    rw [substituteAllWith, forall₂_nil_left_iff, Option.some.injEq]
    exact eq_comm
  | cons t ts ih =>
    rw [substituteAllWith, forall₂_cons_left_iff]
    constructor
    · intro h
      split at h
      · next u us' hu hus =>
        cases h
        exact ⟨u, us', hu, ih.mp hus, rfl⟩
      · cases h
    · rintro ⟨u, us', hu, hus, rfl⟩
      rw [hu, ih.mpr hus]

/-- Only the shape of a proper type counts when arguments are put into it. -/
theorem Proper.substituteWith_shape (h : Proper idx t) : substituteWith close env t = substituteWith close env t.shape := by
  induction h with
  | atom declared plain => rw [shape_of_atom declared plain]
  | array _ ih => rw [shape, substituteWith, substituteWith, ih]
  | named _ _ => rfl
  | @closed h args base interfaces known nonempty arity _ _ _ ih _ _ =>
    have same : substituteAllWith close env args = substituteAllWith close env (args.map shape) := by
      refine substituteAllWith_congr ?_
      rw [forall₂_map_right_iff, forall₂_same]
      exact ih
    rw [shape, substituteWith, substituteWith, shapes_eq_map, if_neg (by simpa using nonempty),
      if_neg (by simpa using nonempty), same]

def Closes (idx : TypeIndex) (close close' : TypeHead → List Ty → Option Ty) : Prop :=
  ∀ h args, idx.Knows h → args ≠ [] → h.params.length = args.length → (∀ a ∈ args, Proper idx a) →
    close h args = close' h args ∧ ∀ t, close h args = some t → Proper idx t

/-- Two ways to make closed types that agree put arguments into a proper type alike, and it stays proper. -/
theorem Proper.substituteWith_closes (closes : Closes idx close close') (henv : ∀ n u, env.get? n = some u → Proper idx u)
    (h : Proper idx t) : substituteWith close env t = substituteWith close' env t ∧
      ∀ u, substituteWith close env t = some u → Proper idx u := by
  induction h with
  | @atom t declared plain =>
    cases t with
    | param n =>
      refine ⟨rfl, fun u hu => ?_⟩
      cases hu
      cases found : env.get? n with
      | none => exact .atom rfl rfl
      | some u => exact henv n u found
    | array e => cases plain
    | named h => cases declared
    | closed h args base interfaces => cases declared
    | _ =>
      refine ⟨rfl, fun u hu => ?_⟩
      cases hu
      exact .atom rfl rfl
  | array _ ih =>
    obtain ⟨same, proper⟩ := ih
    rw [substituteWith, same]
    refine ⟨rfl, fun u hu => ?_⟩
    obtain ⟨e, he, rfl⟩ := Option.map_eq_some_iff.mp hu
    exact .array (proper e (same.trans he))
  | named known params =>
    refine ⟨rfl, fun u hu => ?_⟩
    cases hu
    exact .named known params
  | @closed h args base interfaces known nonempty arity _ _ _ ih _ _ =>
    have same : substituteAllWith close env args = substituteAllWith close' env args := by
      exact substituteAllWith_congr (forall₂_same.mpr fun a ha => (ih a ha).1)
    rw [substituteWith, substituteWith, if_neg (by simpa using nonempty), if_neg (by simpa using nonempty), ← same]
    cases put : substituteAllWith close env args with
    | none => exact ⟨rfl, fun u hu => by cases hu⟩
    | some args' =>
      have each := substituteAllWith_eq_some.mp put
      have length := each.length_eq
      have proper : ∀ a ∈ args', Proper idx a := by
        intro a ha
        obtain ⟨b, hb, puts⟩ := exists_mem_of_forall₂ each ha
        exact (ih b hb).2 a puts
      exact closes h args' known (by rintro rfl; simp_all) (arity.trans length) proper

mutual

/-- What makes more closed types puts arguments into more types, and into no type differently. -/
theorem substituteWith_mono (later : ∀ h args t, close h args = some t → close' h args = some t) :
    (t u : Ty) → substituteWith close env t = some u → substituteWith close' env t = some u
  | .array e, u, h => by
    rw [substituteWith] at h ⊢
    obtain ⟨e', he, rfl⟩ := Option.map_eq_some_iff.mp h
    rw [substituteWith_mono later e e' he]
    rfl
  | .closed head args base interfaces, u, h => by
    rw [substituteWith] at h ⊢
    split
    · next none => rwa [if_pos none] at h
    · next some =>
      rw [if_neg some] at h
      obtain ⟨args', hargs, made⟩ := Option.bind_eq_some_iff.mp h
      rw [substituteAllWith_mono later args args' hargs]
      exact later head args' u made
  | .void, _, h | .null, _, h | .object, _, h | .dynamic, _, h | .string, _, h | .primitive _, _, h
  | .param _, _, h | .named _, _, h => h

theorem substituteAllWith_mono (later : ∀ h args t, close h args = some t → close' h args = some t) :
    (ts us : List Ty) → substituteAllWith close env ts = some us → substituteAllWith close' env ts = some us
  | [], _, h => h
  | t :: ts, us, h => by
    rw [substituteAllWith] at h ⊢
    split at h
    · next u us' hu hus =>
      rw [substituteWith_mono later t u hu, substituteAllWith_mono later ts us' hus]
      exact h
    · cases h

end

end Ty

/-! ## Hierarchies -/

namespace Supers

def shape (s : Supers) : Supers := { base := s.base.map Ty.shape, interfaces := s.interfaces.map Ty.shape }

/-- All the supertypes are proper. -/
structure Proper (idx : TypeIndex) (s : Supers) : Prop where
  base : ∀ t ∈ s.base, t.Proper idx
  interfaces : ∀ t ∈ s.interfaces, t.Proper idx

end Supers

namespace Hierarchy

variable {idx : TypeIndex} {H H' : Hierarchy}

def Proper (idx : TypeIndex) (H : Hierarchy) : Prop := ∀ h, idx.Knows h → (H.supers h).Proper idx

def SameShapes (idx : TypeIndex) (H H' : Hierarchy) : Prop :=
  ∀ h, idx.Knows h → h.params ≠ [] → (H.supers h).shape = (H'.supers h).shape

variable {jump' jump : TypeHead → List Ty} {h : TypeHead} {put' put : Ty → Option Ty} {args ts : List Ty} {t : Ty}

theorem mem_args_of_get? {params : List String} {n : String} (found : (TypeEnv.ofParams params args).get? n = some t) :
    t ∈ args := by
  exact (of_mem_zip (mem_reverse.mp (mem_of_lookup found))).2

variable {us : List Ty}

/-- What happens to types of the same shapes, one by one, happens to lists of them. -/
theorem mapM_of_shapes
    (same : ∀ t u, t.Proper idx → u.Proper idx → t.shape = u.shape → put t = put' u ∧ ∀ v, put t = some v → v.Proper idx)
    (hts : ∀ t ∈ ts, t.Proper idx) (hus : ∀ u ∈ us, u.Proper idx) (shapes : ts.map Ty.shape = us.map Ty.shape) :
    ts.mapM put = us.mapM put' ∧ ∀ vs, ts.mapM put = some vs → ∀ v ∈ vs, v.Proper idx := by
  induction ts generalizing us with
  | nil =>
    cases us with
    | nil => exact ⟨rfl, fun vs h => by cases h; simp⟩
    | cons u us => cases shapes
  | cons t ts ih =>
    cases us with
    | nil => cases shapes
    | cons u us =>
      obtain ⟨shape, shapes⟩ := cons.inj shapes
      obtain ⟨here, proper⟩ := same t u (hts t mem_cons_self) (hus u mem_cons_self) shape
      obtain ⟨rest, properRest⟩ := ih (fun t ht => hts t (mem_cons_of_mem _ ht))
        (fun u hu => hus u (mem_cons_of_mem _ hu)) shapes
      rw [mapM_cons, mapM_cons, ← here, ← rest]
      refine ⟨rfl, fun vs h => ?_⟩
      obtain ⟨v, hv, h⟩ := Option.bind_eq_some_iff.mp h
      obtain ⟨vs', hvs, h⟩ := Option.bind_eq_some_iff.mp h
      cases h
      exact forall_mem_cons.mpr ⟨proper v hv, properRest vs' hvs⟩

theorem mapM_base_of_shapes {a b : Option Ty} (same : ∀ t u, t.Proper idx → u.Proper idx → t.shape = u.shape →
      put t = put' u ∧ ∀ v, put t = some v → v.Proper idx) (ha : ∀ t ∈ a, t.Proper idx) (hb : ∀ u ∈ b, u.Proper idx)
    (shapes : a.map Ty.shape = b.map Ty.shape) :
    a.mapM put = b.mapM put' ∧ ∀ c, a.mapM put = some c → ∀ v ∈ c, v.Proper idx := by
  cases a with
  | none =>
    cases b with
    | none => exact ⟨rfl, fun c h => by cases h; simp⟩
    | some u => cases shapes
  | some t =>
    cases b with
    | none => cases shapes
    | some u =>
      obtain ⟨here, proper⟩ := same t u (ha t rfl) (hb u rfl) (Option.some.inj shapes)
      refine ⟨congrArg (Option.map some) here, fun c h => ?_⟩
      obtain ⟨v, hv, h⟩ := Option.map_eq_some_iff.mp h
      cases h
      intro w hw
      cases hw
      exact proper v hv

/-- Arguments put into a supertype, which stays as it is when there are none. -/
def fillWithin (H : Hierarchy) (fuel : Nat) (env : TypeEnv) (t : Ty) : Option Ty :=
  if env.isEmpty then some t else Ty.substituteWith (H.instantiateWithin fuel) env t

/-- **One step of an instantiation** puts the arguments into the base and into the interfaces. -/
theorem instantiateWithin_succ (fuel : Nat) (arity : h.params.length = args.length) : H.instantiateWithin (fuel + 1) h args =
      ((H.supers h).base.mapM (H.fillWithin fuel (TypeEnv.ofParams h.params args))).bind fun base =>
        ((H.supers h).interfaces.mapM (H.fillWithin fuel (TypeEnv.ofParams h.params args))).map (Ty.closed h args base) := by
  have put : H.fillWithin fuel (TypeEnv.ofParams h.params args) = fun t =>
      if (TypeEnv.ofParams h.params args).isEmpty then some t
      else Ty.substituteWith (H.instantiateWithin fuel) (TypeEnv.ofParams h.params args) t := rfl
  simp only [instantiateWithin, if_pos arity, ← put]
  cases (H.supers h).base.mapM (H.fillWithin fuel (TypeEnv.ofParams h.params args)) with
  | none => rfl
  | some base =>
    cases (H.supers h).interfaces.mapM (H.fillWithin fuel (TypeEnv.ofParams h.params args)) <;> rfl

/-- **Hierarchies of the same shapes instantiate alike**, and instances are proper. -/
theorem instantiateWithin_closes (proper : H.Proper idx) (proper' : H'.Proper idx) (same : SameShapes idx H H')
    (fuel : Nat) : Ty.Closes idx (H.instantiateWithin fuel) (H'.instantiateWithin fuel) := by
  induction fuel with
  | zero =>
    intro h args _ _ _ _
    exact ⟨rfl, fun t ht => by cases ht⟩
  | succ fuel ih =>
    intro h args known nonempty arity hargs
    let env := TypeEnv.ofParams h.params args
    have henv (n : String) (u : Ty) (found : env.get? n = some u) : u.Proper idx := hargs u (mem_args_of_get? found)
    have filled : env.isEmpty = false := by
      have length : env.length = args.length := by simp [env, TypeEnv.ofParams, arity]
      rw [isEmpty_eq_false_iff, ← length_pos_iff, length, length_pos_iff]
      exact nonempty
    have put (t u : Ty) (ht : t.Proper idx) (hu : u.Proper idx) (shape : t.shape = u.shape) :
        H.fillWithin fuel env t = H'.fillWithin fuel env u ∧
          ∀ v, H.fillWithin fuel env t = some v → v.Proper idx := by
      obtain ⟨agree, stays⟩ := ht.substituteWith_closes ih henv
      simp only [fillWithin, filled, Bool.false_eq_true, if_false]
      refine ⟨?_, stays⟩
      rw [agree, ht.substituteWith_shape, hu.substituteWith_shape, shape]
    have generic : h.params ≠ [] := by
      rintro none
      rw [none, length_nil, eq_comm, length_eq_zero_iff] at arity
      exact nonempty arity
    have shapes := same h known generic
    have base := mapM_base_of_shapes put (proper h known).base (proper' h known).base
      (congrArg Supers.base shapes)
    have interfaces := mapM_of_shapes put (proper h known).interfaces (proper' h known).interfaces
      (congrArg Supers.interfaces shapes)
    rw [instantiateWithin_succ fuel arity, instantiateWithin_succ fuel arity, ← base.1, ← interfaces.1]
    refine ⟨rfl, fun t ht => ?_⟩
    obtain ⟨b, hb, ht⟩ := Option.bind_eq_some_iff.mp ht
    obtain ⟨is, his, rfl⟩ := Option.map_eq_some_iff.mp ht
    exact .closed known nonempty arity hargs (base.2 b hb) (interfaces.2 is his)

theorem mapM_mono (later : ∀ t u, put t = some u → put' t = some u) (h : ts.mapM put = some us) : ts.mapM put' = some us := by
  induction ts generalizing us with
  | nil => exact h
  | cons t ts ih =>
    rw [mapM_cons] at h ⊢
    obtain ⟨u, hu, h⟩ := Option.bind_eq_some_iff.mp h
    obtain ⟨us', hus, h⟩ := Option.bind_eq_some_iff.mp h
    rw [later t u hu, ih hus]
    exact h

theorem mapM_base_mono (later : ∀ t u, put t = some u → put' t = some u) {a b : Option Ty} (h : a.mapM put = some b) :
    a.mapM put' = some b := by
  cases a with
  | none => exact h
  | some t =>
    obtain ⟨u, hu, rfl⟩ := Option.map_eq_some_iff.mp h
    exact Option.map_eq_some_iff.mpr ⟨u, later t u hu, rfl⟩

/-- **More steps make no difference** to an instantiation that ends. -/
theorem instantiateWithin_mono {m n : Nat} (le : m ≤ n) (made : H.instantiateWithin m h args = some t) :
    H.instantiateWithin n h args = some t := by
  induction m generalizing n h args t with
  | zero => cases made
  | succ m ih =>
    obtain ⟨n, rfl⟩ : ∃ k, n = k + 1 := ⟨n - 1, by omega⟩
    by_cases arity : h.params.length = args.length
    · have later (t u : Ty) (put : H.fillWithin m (TypeEnv.ofParams h.params args) t = some u) :
          H.fillWithin n (TypeEnv.ofParams h.params args) t = some u := by
        unfold fillWithin at put ⊢
        split at put
        · next none => rw [if_pos none, put]
        · next some =>
          rw [if_neg some]
          exact Ty.substituteWith_mono (fun h args t made => ih (Nat.le_of_succ_le_succ le) made) t u put
      rw [instantiateWithin_succ m arity] at made
      obtain ⟨base, hbase, made⟩ := Option.bind_eq_some_iff.mp made
      obtain ⟨interfaces, hinterfaces, rfl⟩ := Option.map_eq_some_iff.mp made
      rw [instantiateWithin_succ n arity, mapM_base_mono later hbase, mapM_mono later hinterfaces]
      rfl
    · simp only [instantiateWithin, if_neg arity] at made ⊢
      exact made

/-! ## Ancestors -/

theorem ancestorsAll_congr (same : ∀ t ∈ ts, ancestorsWith jump t = ancestorsWith jump' t) :
    ancestorsAll jump ts = ancestorsAll jump' ts := by
  induction ts with
  | nil => rfl
  | cons t ts ih =>
    rw [ancestorsAll, ancestorsAll, same t mem_cons_self, ih fun t ht => same t (mem_cons_of_mem _ ht)]

theorem ancestorsOpt_congr {t : Option Ty} (same : ∀ u ∈ t, ancestorsWith jump u = ancestorsWith jump' u) :
    ancestorsOpt jump t = ancestorsOpt jump' t := by
  cases t with
  | none => rfl
  | some t => exact same t rfl

/-- The ancestors of a proper type depend on those of definitions without type parameters only. -/
theorem ancestorsWith_congr (same : ∀ h, idx.Knows h → h.params = [] → jump h = jump' h) (ht : t.Proper idx) :
    ancestorsWith jump t = ancestorsWith jump' t := by
  induction ht with
  | @atom t declared plain =>
    cases t with
    | named h => cases declared
    | closed h args base interfaces => cases declared
    | _ => rfl
  | array _ _ => rfl
  | named known params => exact same _ known params
  | closed _ _ _ _ _ _ _ ihBase ihInterfaces =>
    rw [ancestorsWith, ancestorsWith, ancestorsOpt_congr ihBase, ancestorsAll_congr ihInterfaces]

def SamePlain (idx : TypeIndex) (H H' : Hierarchy) : Prop :=
  ∀ h, idx.Knows h → h.params = [] → H.supers h = H'.supers h

theorem definitionAncestors_congr (proper : H.Proper idx) (same : SamePlain idx H H') (fuel : Nat) (known : idx.Knows h)
    (params : h.params = []) : H.definitionAncestors fuel h = H'.definitionAncestors fuel h := by
  induction fuel generalizing h with
  | zero => rfl
  | succ fuel ih =>
    have here := same h known params
    have supers := proper h known
    rw [here] at supers
    simp only [definitionAncestors, here]
    rw [ancestorsOpt_congr fun t ht => ancestorsWith_congr (fun h hk hp => ih hk hp) (supers.base t ht),
      ancestorsAll_congr fun t ht => ancestorsWith_congr (fun h hk hp => ih hk hp) (supers.interfaces t ht)]

/-- **Proper types have the same supertypes** in two hierarchies of one size that agree on definitions without type
parameters. -/
theorem supertypes_congr (proper : H.Proper idx) (same : SamePlain idx H H') (size : H.rows.length = H'.rows.length)
    (ht : t.Proper idx) : H.supertypes t = H'.supertypes t := by
  unfold supertypes ancestors
  rw [ancestorsWith_congr (fun h hk hp => definitionAncestors_congr proper same _ hk hp) ht, size]

theorem assignable_congr (proper : H.Proper idx) (same : SamePlain idx H H') (size : H.rows.length = H'.rows.length)
    (ht : t.Proper idx) (target : Ty) : H.assignable t target = H'.assignable t target := by
  fun_induction assignable H t target with
  | case1 target => rw [assignable]
  | case2 e f ih =>
    have elem : e.Proper idx := by
      cases ht with
      | atom declared plain => cases plain
      | array elem => exact elem
    rw [assignable, ih elem]
  | case3 t target notNull notArrays =>
    rw [assignable, supertypes_congr proper same size ht]
    · exact notNull
    · exact notArrays

end Hierarchy

end Polyglot
