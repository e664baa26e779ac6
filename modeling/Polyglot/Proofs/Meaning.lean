import Polyglot.Proofs.Instantiation
import Polyglot.Proofs.TypeGrammar

/-!
# What type expressions mean

The meaning of a type expression rests on the index, which says what its names stand for, and on the hierarchy,
which says what closed types carry. Expressions mean proper types. Whatever is known of supertypes, an expression
means types of one shape, and where hierarchies instantiate alike it means the same type.
-/

namespace Polyglot

open List

namespace TypeExpr

/-! ## Names -/

/-- No name in the expression has the mark of a number of type parameters in it. -/
inductive PlainNames : TypeExpr → Prop where
  | mk {name : String} {args : List TypeExpr} {arrays : Nat} (plain : arityMark ∉ name.toList)
      (plainArgs : ∀ a ∈ args, PlainNames a) : PlainNames ⟨name, args, arrays⟩

variable {e : TypeExpr} {text name : String} {t u : Ty} {s : Scope} {args : List TypeExpr}

variable {arity : Nat} {close : TypeHead → List Ty → Option Ty} {es : List TypeExpr}

theorem Written.plainNames {cs rest : List Char} (h : Written isReadable cs es rest) : ∀ e ∈ es, e.PlainNames := by
  have plain {name : List Char} (isName : IsRun isReadable name) : arityMark ∉ (String.ofList name).toList := by
    rw [String.toList_ofList]
    exact fun mem => absurd (isName.2 _ mem) (by decide)
  induction h with
  | plain _ isName _ => exact forall_mem_singleton.mpr (.mk (plain isName) (forall_mem_nil _))
  | applied _ isName _ _ _ _ ih => exact forall_mem_singleton.mpr (.mk (plain isName) ih)
  | more _ _ _ first second => exact forall_mem_cons.mpr ⟨forall_mem_singleton.mp first, second⟩

/-- **The names that are read are plain.** -/
theorem plainNames_parse (run : parse text = .ok e) : e.PlainNames := by
  obtain ⟨gap, -, written⟩ := (parse_eq_ok_iff text e).mp run
  exact forall_mem_singleton.mp written.plainNames

/-- What a name stands for: a type by itself, or a definition that is applied to arguments. -/
inductive Referent where
  | type (t : Ty)
  | generic (h : TypeHead)

/-- What a name with a number of arguments stands for. The hierarchy does not matter. -/
def Scope.referent? (s : Scope) (name : String) (arity : Nat) : Option Referent :=
  if arity = 0 && s.params.contains name then some (.type (.param name))
  else
    match (if arity = 0 then Ty.alias? name else none) with
    | some t => some (.type t)
    | none =>
      (s.index.resolve? s.usings name arity s.space).map fun d =>
        match (if arity = 0 then none else d.head?) with
        | none => .type d
        | some h => .generic h

/-- What a name means with arguments. -/
def Referent.apply (H : Hierarchy) (actual : List Ty) : Referent → Except Fault Ty
  | .type t => pure t
  | .generic h =>
    match H.instantiate? h actual with
    | some t => pure t
    | none => throw endless

/-- What the name and the arguments of an expression mean, before arrays are made of it. -/
inductive Resolved (s : Scope) (name : String) (args : List TypeExpr) : Ty → Prop where
  | type {t : Ty} {actual : List Ty} (found : s.referent? name args.length = some (.type t))
      (each : Forall₂ (fun a t => resolve s a = .ok t) args actual) : Resolved s name args t
  | generic {t : Ty} {h : TypeHead} {actual : List Ty} (found : s.referent? name args.length = some (.generic h))
      (each : Forall₂ (fun a t => resolve s a = .ok t) args actual)
      (made : s.hierarchy.instantiate? h actual = some t) : Resolved s name args t

theorem resolveAll_eq_ok {ts : List Ty} : resolveAll s es = .ok ts ↔ Forall₂ (fun e t => resolve s e = .ok t) es ts := by
  induction es generalizing ts with
  | nil =>
    rw [forall₂_nil_left_iff]
    exact ⟨fun h => by cases h; rfl, fun h => by rw [h]; rfl⟩
  | cons e es ih =>
    rw [forall₂_cons_left_iff]
    constructor
    · intro h
      obtain ⟨t, ht, h⟩ := bind_eq_ok.mp h
      obtain ⟨ts', hts, h⟩ := bind_eq_ok.mp h
      cases h
      exact ⟨t, ts', ht, ih.mp hts, rfl⟩
    · rintro ⟨t, ts', ht, hts, rfl⟩
      exact bind_eq_ok.mpr ⟨t, ht, bind_eq_ok.mpr ⟨ts', ih.mpr hts, rfl⟩⟩

/-- **What a type expression means**: what its name stands for, with its arguments. -/
theorem resolve_eq (arrays : Nat) : resolve s ⟨name, args, arrays⟩ =
    (s.referent? name args.length).elim (throw (.problem none (.unknownType name))) fun x =>
      resolveAll s args >>= fun actual => arraysOf arrays <$> x.apply s.hierarchy actual := by
  have bare : args.isEmpty = decide (args.length = 0) := by cases args <;> rfl
  rw [resolve, bare, Scope.referent?]
  simp only [decide_eq_true_eq]
  by_cases listed : (decide (args.length = 0) && s.params.contains name) = true
  · obtain rfl : args = [] := by simpa using (Bool.and_eq_true_iff.mp listed).1
    rw [if_pos listed, if_pos listed]
    rfl
  rw [if_neg listed, if_neg listed]
  cases short : (if args.length = 0 then Ty.alias? name else none) with
  | some t =>
    obtain rfl : args = [] := by
      split at short
      · next none => exact length_eq_zero_iff.mp none
      · cases short
    rfl
  | none =>
    cases s.index.resolve? s.usings name args.length s.space with
    | none => rfl
    | some d =>
      dsimp only [Option.map_some, Option.elim_some]
      cases all : resolveAll s args with
      | error f => rfl
      | ok actual =>
        change (pure actual >>= _) = (pure actual >>= _)
        rw [pure_bind]
        cases resolveAll_eq_ok.mp all with
        | nil => rfl
        | @cons _ t _ ts _ _ =>
          cases d.head? with
          | none => rfl
          | some h =>
            change _ = arraysOf arrays <$> Referent.apply s.hierarchy (t :: ts) (.generic h)
            rw [Referent.apply]
            dsimp only
            cases s.hierarchy.instantiate? h (t :: ts) <;> rfl

theorem resolve_cases {arrays : Nat} (run : resolve s ⟨name, args, arrays⟩ = .ok t) :
    ∃ u, t = arraysOf arrays u ∧ Resolved s name args u := by
  rw [resolve_eq] at run
  cases found : s.referent? name args.length with
  | none =>
    rw [found] at run
    cases run
  | some x =>
    rw [found] at run
    obtain ⟨actual, all, run⟩ := bind_eq_ok.mp run
    have each := resolveAll_eq_ok.mp all
    cases x with
    | type t =>
      cases run
      exact ⟨_, rfl, .type found each⟩
    | generic h =>
      rw [Referent.apply] at run
      split at run
      · next made =>
        cases run
        exact ⟨_, rfl, .generic found each made⟩
      · cases run

theorem Resolved.resolve (h : Resolved s name args u) (arrays : Nat) :
    TypeExpr.resolve s ⟨name, args, arrays⟩ = .ok (arraysOf arrays u) := by
  rw [resolve_eq]
  cases h with
  | type found each =>
    rw [found]
    exact bind_eq_ok.mpr ⟨_, resolveAll_eq_ok.mpr each, rfl⟩
  | generic found each made =>
    rw [found]
    refine bind_eq_ok.mpr ⟨_, resolveAll_eq_ok.mpr each, ?_⟩
    rw [Referent.apply, made]
    rfl

/-! ## The same expression in two hierarchies -/

variable {idx : TypeIndex} {H : Hierarchy}

theorem resolve?_congr {idx' : TypeIndex} (same : ∀ k, idx.byKey.lookup k = idx'.byKey.lookup k) (usings : List String)
    (name : String) (arity : Nat) (space : String) :
    idx.resolve? usings name arity space = idx'.resolve? usings name arity space := by
  simp only [TypeIndex.resolve?, TypeIndex.find?, same]

theorem exists_find?_of_resolve? {space : String} {usings : List String} (plain : arityMark ∉ name.toList)
    (found : idx.resolve? usings name arity space = some t) :
    ∃ full : String, EndsInName full.toList ∧ idx.find? full arity = some t := by
  simp only [TypeIndex.resolve?] at found
  split at found
  · next u inside =>
    cases found
    obtain ⟨outer, -, hit⟩ := exists_of_findSome?_eq_some inside
    refine ⟨outer ++ "." ++ name, ?_, hit⟩
    have chars : (outer ++ "." ++ name).toList = outer.toList ++ '.' :: name.toList := by simp
    rw [chars]
    exact endsInName_qualified _ plain
  · exact ⟨name, endsInName_of_not_mem plain, found⟩

theorem alias?_atom (h : Ty.alias? name = some t) : t.head? = none ∧ t.isArray = false := by
  unfold Ty.alias? at h
  split at h <;> cases h <;> exact ⟨rfl, rfl⟩

/-- What stands in a sound index under a key is proper, unless it has to be applied to arguments. -/
theorem proper_of_isRow {k : String} (sound : idx.Sound) (found : idx.byKey.lookup k = some t)
    (applied : ∀ h, t = .named h → h.params = []) : t.Proper idx := by
  have row := sound.row k t found
  cases t with
  | named h => exact .named (sound.knows found) (applied h rfl)
  | array e => exact row.elim
  | closed h args base interfaces => exact row.elim
  | _ => exact .atom rfl rfl

def Referent.Proper (idx : TypeIndex) (arity : Nat) : Referent → Prop
  | .type t => t.Proper idx
  | .generic h => idx.Knows h ∧ h.params.length = arity ∧ arity ≠ 0

theorem referent?_proper {r : Referent} (sound : s.index.Sound) (plain : arityMark ∉ name.toList)
    (h : s.referent? name arity = some r) : r.Proper s.index arity := by
  unfold Scope.referent? at h
  split at h
  · cases h
    exact Ty.Proper.atom rfl rfl
  · split at h
    · next t short =>
      cases h
      split at short
      · exact Ty.Proper.atom (alias?_atom short).1 (alias?_atom short).2
      · cases short
    · obtain ⟨d, found, rfl⟩ := Option.map_eq_some_iff.mp h
      obtain ⟨full, ends, found⟩ := exists_find?_of_resolve? plain found
      by_cases bare : arity = 0
      · subst bare
        refine proper_of_isRow sound found fun h hd => ?_
        subst hd
        exact length_eq_zero_iff.mp (sound.arity_eq ends found)
      · rw [if_neg bare]
        cases head : d.head? with
        | none =>
          refine proper_of_isRow sound found fun h hd => ?_
          subst hd
          cases head
        | some h =>
          have named : d = .named h := by
            have row := sound.row _ d found
            cases d with
            | named h' => cases head; rfl
            | closed h' args base interfaces => exact row.elim
            | _ => cases head
          subst named
          exact ⟨sound.knows found, sound.arity_eq ends found, bare⟩

theorem arraysOf_proper (h : t.Proper idx) (n : Nat) : (arraysOf n t).Proper idx := by
  induction n generalizing t with
  | zero => exact h
  | succ n ih => exact ih (.array h)

theorem shape_arraysOf (n : Nat) (t : Ty) : (arraysOf n t).shape = arraysOf n t.shape := by
  induction n generalizing t with
  | zero => rfl
  | succ n ih => exact ih (.array t)

theorem instantiate?_eq_some {h : TypeHead} {args : List Ty} (made : H.instantiate? h args = some t) :
    ∃ base interfaces, t = .closed h args base interfaces := by
  unfold Hierarchy.instantiate? Hierarchy.depth Hierarchy.instantiateWithin at made
  simp only at made
  split at made
  · split at made
    · cases made
      exact ⟨_, _, rfl⟩
    · cases made
  · cases made
    exact ⟨_, _, rfl⟩

/-- **An expression means types of one shape**, whatever is known of supertypes. -/
theorem shape_resolve (plain : e.PlainNames) (ht : resolve s e = .ok t)
    (hu : resolve { s with hierarchy := H } e = .ok u) : t.shape = u.shape := by
  induction plain generalizing t u with
  | @mk name args arrays _ _ ih =>
    obtain ⟨t, rfl, rt⟩ := resolve_cases ht
    obtain ⟨u, rfl, ru⟩ := resolve_cases hu
    rw [shape_arraysOf, shape_arraysOf]
    congr 1
    have refers : s.referent? name args.length = Scope.referent? { s with hierarchy := H } name args.length := rfl
    cases rt with
    | type ft _ =>
      cases ru with
      | type fu _ =>
        rw [refers, fu] at ft
        cases ft
        rfl
      | generic fu => rw [refers, fu] at ft; cases ft
    | generic ft eachT madeT =>
      cases ru with
      | type fu _ => rw [refers, fu] at ft; cases ft
      | generic fu eachU madeU =>
        rw [refers, fu] at ft
        cases ft
        obtain ⟨_, _, rfl⟩ := instantiate?_eq_some madeT
        obtain ⟨_, _, rfl⟩ := instantiate?_eq_some madeU
        rw [Ty.shape, Ty.shape, Ty.shapes_eq_map, Ty.shapes_eq_map]
        congr 1
        exact map_eq_of_forall₂ eachT eachU fun a ha _ _ ht hu => ih a ha ht hu

/-- **An expression means a proper type.** -/
theorem resolve_proper (sound : s.index.Sound) (closes : Ty.Closes s.index s.hierarchy.instantiate? close)
    (plain : e.PlainNames) (run : resolve s e = .ok t) : t.Proper s.index := by
  induction plain generalizing t with
  | @mk name args arrays plain _ ih =>
    obtain ⟨t, rfl, resolved⟩ := resolve_cases run
    refine arraysOf_proper ?_ arrays
    cases resolved with
    | type found _ => exact referent?_proper sound plain found
    | generic found each made =>
      obtain ⟨known, arity, nonempty⟩ := referent?_proper sound plain found
      have length := each.length_eq
      refine (closes _ _ known ?_ (arity.trans length) ?_).2 t made
      · rintro rfl
        exact nonempty length
      · intro t ht
        obtain ⟨a, ha, means⟩ := exists_mem_of_forall₂ each ht
        exact ih a ha means

/-- **An expression keeps its meaning** when more instances can be made. -/
theorem resolve_mono (sound : s.index.Sound) (closes : Ty.Closes s.index s.hierarchy.instantiate? close)
    (later : ∀ h args u, s.index.Knows h → args ≠ [] → h.params.length = args.length →
      (∀ a ∈ args, a.Proper s.index) → s.hierarchy.instantiate? h args = some u → H.instantiate? h args = some u)
    (plain : e.PlainNames) (run : resolve s e = .ok t) : resolve { s with hierarchy := H } e = .ok t := by
  induction plain generalizing t with
  | @mk name args arrays plain plainArgs ih =>
    obtain ⟨t, rfl, resolved⟩ := resolve_cases run
    have means {actual : List Ty} (each : Forall₂ (fun a t => resolve s a = .ok t) args actual) :
        Forall₂ (fun a t => resolve { s with hierarchy := H } a = .ok t) args actual := by
      have inside := (forall₂_and_left args actual).mpr ⟨fun a ha => ha, each⟩
      exact inside.imp fun a t h => ih a h.1 h.2
    refine Resolved.resolve ?_ arrays
    cases resolved with
    | type found each => exact .type found (means each)
    | generic found each made =>
      obtain ⟨known, arity, nonempty⟩ := referent?_proper sound plain found
      have length := each.length_eq
      refine .generic found (means each) (later _ _ _ known ?_ (arity.trans length) ?_ made)
      · rintro rfl
        exact nonempty length
      · intro t ht
        obtain ⟨a, ha, means⟩ := exists_mem_of_forall₂ each ht
        exact resolve_proper sound closes (plainArgs a ha) means

mutual

/-- Of the index only what it has under each key counts. -/
theorem resolve_index (same : ∀ k, s.index.byKey.lookup k = idx.byKey.lookup k) :
    (e : TypeExpr) → resolve { s with index := idx } e = resolve s e
  | ⟨name, args, arrays⟩ => by
    rw [resolve, resolve, resolve?_congr same, resolveAll_index same args]

theorem resolveAll_index (same : ∀ k, s.index.byKey.lookup k = idx.byKey.lookup k) :
    (es : List TypeExpr) → resolveAll { s with index := idx } es = resolveAll s es
  | [] => by rw [resolveAll, resolveAll]
  | e :: es => by rw [resolveAll, resolveAll, resolve_index same e, resolveAll_index same es]

end

/-! ## Texts -/

theorem read_eq_ok (run : read s text = .ok t) : ∃ e, parse text = .ok e ∧ e.PlainNames ∧ resolve s e = .ok t := by
  unfold read at run
  split at run
  · cases run
  · next e parsed => exact ⟨e, parsed, plainNames_parse parsed, run⟩

theorem readAt_eq_ok {place : Position} (run : readAt s place text = .ok t) : read s text = .ok t := by
  unfold readAt at run
  split at run
  · cases run
  · exact run

theorem shape_read (ht : read s text = .ok t) (hu : read { s with hierarchy := H } text = .ok u) : t.shape = u.shape := by
  obtain ⟨e, parsed, plain, ht⟩ := read_eq_ok ht
  obtain ⟨e', parsed', -, hu⟩ := read_eq_ok hu
  cases parsed.symm.trans parsed'
  exact shape_resolve plain ht hu

theorem read_proper (sound : s.index.Sound) (closes : Ty.Closes s.index s.hierarchy.instantiate? close)
    (run : read s text = .ok t) : t.Proper s.index := by
  obtain ⟨e, -, plain, run⟩ := read_eq_ok run
  exact resolve_proper sound closes plain run

theorem read_mono (sound : s.index.Sound) (closes : Ty.Closes s.index s.hierarchy.instantiate? close)
    (later : ∀ h args u, s.index.Knows h → args ≠ [] → h.params.length = args.length →
      (∀ a ∈ args, a.Proper s.index) → s.hierarchy.instantiate? h args = some u → H.instantiate? h args = some u)
    (run : read s text = .ok t) : read { s with hierarchy := H } text = .ok t := by
  obtain ⟨e, parsed, plain, run⟩ := read_eq_ok run
  unfold read
  rw [parsed]
  exact resolve_mono sound closes later plain run

/-- **A text means the same type** in two scopes whose hierarchies instantiate alike. -/
theorem read_unique (sound : s.index.Sound) (closes : Ty.Closes s.index s.hierarchy.instantiate? H.instantiate?)
    (ht : read s text = .ok t) (hu : read { s with hierarchy := H } text = .ok u) : t = u := by
  refine Except.ok.inj ((read_mono sound closes (fun h args v known some arity proper made => ?_) ht).symm.trans hu)
  exact (closes h args known some arity proper).1 ▸ made

theorem read_index (same : ∀ k, s.index.byKey.lookup k = idx.byKey.lookup k) (text : String) :
    read { s with index := idx } text = read s text := by
  simp only [read, resolve_index same]

theorem readAt_index (same : ∀ k, s.index.byKey.lookup k = idx.byKey.lookup k) (place : Position) (text : String) :
    readAt { s with index := idx } place text = readAt s place text := by
  simp only [readAt, read_index same]

end TypeExpr

end Polyglot
