import Polyglot.Proofs.Expansion
import Polyglot.Proofs.TypeKeys

/-!
# Substitution composes

Putting types in for parameters makes the closed types around them anew, with the supertypes that their definitions have
by then. The key of the result does not show these: it is the key of the type with other keys for its parameters
(`Ty.keyUnder`). So it is enough to compare what becomes of each parameter.
-/

namespace Polyglot

namespace Ty

/-- The key of a type whose parameters have other keys. -/
def keyUnder (keyOf : String → String) : Ty → String
  | array e => e.keyUnder keyOf ++ "[]"
  | param n => keyOf n
  | closed h args _ _ => h.qualified ++ argsText (args.map (keyUnder keyOf))
  | t => t.key

/-- A type parameter stands in the type, by itself or in an argument. -/
inductive Mentions (n : String) : Ty → Prop where
  | param : Mentions n (.param n)
  | array {e : Ty} (elem : Mentions n e) : Mentions n (.array e)
  | closed {h : TypeHead} {args : List Ty} {base : Option Ty} {interfaces : List Ty} {a : Ty} (mem : a ∈ args)
      (inside : Mentions n a) : Mentions n (.closed h args base interfaces)

/-- The key of what stands for a parameter. -/
def keyIn (env : TypeEnv) (keyOf : String → String) (n : String) : String :=
  ((env.get? n).map (keyUnder keyOf)).getD (keyOf n)

variable {env : TypeEnv} {keyOf keyOf' : String → String} {t u : Ty}

theorem keyUnder_congr (same : ∀ n, t.Mentions n → keyOf n = keyOf' n) : t.keyUnder keyOf = t.keyUnder keyOf' := by
  fun_induction keyUnder keyOf t with
  | case1 e ih => rw [keyUnder, ih fun n h => same n (.array h)]
  | case2 n => rw [keyUnder, same n .param]
  | case3 h args base interfaces ih =>
    rw [keyUnder, List.map_congr_left fun a ha => ih a ha fun n h => same n (.closed ha h)]
  | case4 t => rw [keyUnder] <;> assumption

/-- The key of a type is made of names behind marks. -/
theorem keyUnder_mark (t : Ty) : t.keyUnder ("!" ++ ·) = t.key := by
  fun_induction keyUnder ("!" ++ ·) t with
  | case1 e ih => rw [key, ih]
  | case2 n => rfl
  | case3 h args base interfaces ih =>
    rw [key, List.map_congr_left ih, argsText, keys_eq_map, List.isEmpty_map]
  | case4 t => rfl

theorem mem_appliedAll {a : TypeHead × Nat} {ts : List Ty} : a ∈ appliedAll ts ↔ ∃ t ∈ ts, a ∈ t.applied := by
  induction ts with
  | nil => simp [appliedAll]
  | cons t ts ih => simp [appliedAll, ih]

/-- The parameters of a definition become its arguments. -/
theorem map_keyIn_ofParams {params : List String} {args : List Ty} (nodup : params.Nodup)
    (arity : params.length = args.length) :
    params.map (keyIn (TypeEnv.ofParams params args) keyOf) = args.map (keyUnder keyOf) := by
  have distinct : ((TypeEnv.ofParams params args).map Prod.fst).Nodup := by
    rwa [TypeEnv.ofParams, List.map_reverse, List.nodup_reverse, List.map_fst_zip arity.le]
  have row : ∀ p ∈ params.zip args, keyIn (TypeEnv.ofParams params args) keyOf p.1 = p.2.keyUnder keyOf := by
    intro p hp
    have found : (TypeEnv.ofParams params args).get? p.1 = some p.2 := lookup_of_mem distinct (List.mem_reverse.mpr hp)
    rw [keyIn, found]
    rfl
  have rows : ((params.zip args).map Prod.fst).map (keyIn (TypeEnv.ofParams params args) keyOf) =
      ((params.zip args).map Prod.snd).map (keyUnder keyOf) := by
    rw [List.map_map, List.map_map]
    exact List.map_congr_left row
  rwa [List.map_fst_zip arity.le, List.map_snd_zip arity.ge] at rows

end Ty

namespace Hierarchy

variable {H : Hierarchy} {h : TypeHead} {args : List Ty} {t u : Ty} {env : TypeEnv}

theorem exists_closed_of_instantiate? (made : H.instantiate? h args = some t) :
    ∃ base interfaces, t = .closed h args base interfaces := by
  by_cases arity : h.params.length = args.length
  · rw [instantiate?, depth, instantiateWithin_succ _ arity] at made
    obtain ⟨base, -, made⟩ := Option.bind_eq_some_iff.mp made
    obtain ⟨interfaces, -, rfl⟩ := Option.map_eq_some_iff.mp made
    exact ⟨base, interfaces, rfl⟩
  · simp only [instantiate?, depth, instantiateWithin, if_neg arity] at made
    exact ⟨_, _, (Option.some.inj made).symm⟩

/-- **The instantiations in a type end**, so that it can be made anew. -/
def Ends (H : Hierarchy) (t : Ty) : Prop := ∀ a ∈ t.applied, ¬ H.Endless a

/-- **What a substitution shows**: its key is made from the keys of what is put in, and its instantiations end when those
of the type and of what is put in do. -/
theorem substituteWith_shows {keyOf : String → String} (put : t.substituteWith H.instantiate? env = some u) :
    u.keyUnder keyOf = t.keyUnder (Ty.keyIn env keyOf) ∧
      ((∀ n r, env.get? n = some r → H.Ends r) → H.Ends t → H.Ends u) := by
  fun_induction Ty.keyUnder (Ty.keyIn env keyOf) t generalizing u with
  | case1 e ih =>
    obtain ⟨e', he, rfl⟩ := Option.map_eq_some_iff.mp put
    rw [Ty.keyUnder, (ih he).1]
    exact ⟨rfl, (ih he).2⟩
  | case2 n =>
    obtain rfl := Option.some.inj put
    rw [Ty.keyIn]
    cases found : env.get? n with
    | none => exact ⟨by rw [Option.getD_none, Ty.keyUnder]; rfl, fun _ ends => ends⟩
    | some r => exact ⟨rfl, fun values _ => values n r found⟩
  | case3 h args base interfaces ih =>
    rw [Ty.substituteWith] at put
    split at put
    · next bare =>
      obtain rfl := Option.some.inj put
      obtain rfl := List.isEmpty_iff.mp bare
      exact ⟨by rw [Ty.keyUnder]; rfl, fun _ ends => ends⟩
    · next filled =>
      obtain ⟨args', hargs, made⟩ := Option.bind_eq_some_iff.mp put
      obtain ⟨b, is, rfl⟩ := exists_closed_of_instantiate? made
      have each := Ty.substituteAllWith_eq_some.mp hargs
      have shown := ((List.forall₂_and_left _ _).mpr ⟨ih, each⟩).imp fun a b both => both.1 both.2
      have keys := map_eq_map_of_forall₂ (shown.imp fun a b both => both.1.symm)
      rw [Ty.keyUnder, keys]
      refine ⟨rfl, fun values ends => ?_⟩
      rw [Ends, Ty.applied, List.forall_mem_append, if_neg filled] at ends
      rw [Ends, Ty.applied, List.forall_mem_append, ← each.length_eq]
      refine ⟨fun a ha => ends.1 a (by grind), fun a ha => ?_⟩
      obtain ⟨x', hx', ha⟩ := Ty.mem_appliedAll.mp ha
      obtain ⟨x, hx, both⟩ := exists_mem_of_forall₂ shown hx'
      exact both.2 values (fun b hb => ends.2 b (Ty.mem_appliedAll.mpr ⟨x, hx, hb⟩)) a ha
  | case4 t array param closed =>
    have same : t.substituteWith H.instantiate? env = some t := by rw [Ty.substituteWith] <;> assumption
    obtain rfl := Option.some.inj (same.symm.trans put)
    exact ⟨by rw [Ty.keyUnder] <;> assumption, fun _ ends => ends⟩

theorem substitute?_shows {keyOf : String → String} (put : H.substitute? env t = some u) :
    u.keyUnder keyOf = t.keyUnder (Ty.keyIn env keyOf) ∧
      ((∀ n r, env.get? n = some r → H.Ends r) → H.Ends t → H.Ends u) := by
  unfold substitute? at put
  split at put
  · next empty =>
    obtain rfl := List.isEmpty_iff.mp empty
    obtain rfl := Option.some.inj put
    exact ⟨rfl, fun _ ends => ends⟩
  · exact substituteWith_shows put

theorem key_substitute? (put : H.substitute? env t = some u) : u.key = t.keyUnder (Ty.keyIn env ("!" ++ ·)) := by
  rw [← Ty.keyUnder_mark, (substitute?_shows put).1]

theorem Ends.exists_substitute? (ends : H.Ends t) (env : TypeEnv) : ∃ u, H.substitute? env t = some u := by
  unfold substitute?
  split
  · exact ⟨t, rfl⟩
  · refine Option.isSome_iff_exists.mp ((Ty.substituteWith_isSome_iff (H.instantiateWithin_isSome_iff H.depth) t).mpr ?_)
    exact fun a ha => (endsWithin_of_not_endless (ends a ha)).mono (Nat.le_succ _)

/-- A definition that can be applied can be applied to its own parameters, and the parameters can be replaced. -/
theorem exists_own (arity : h.params.length = args.length) (made : H.instantiate? h args = some t) :
    ∃ base interfaces, H.instantiate? h (h.params.map .param) = some (.closed h (h.params.map .param) base interfaces) ∧
      H.Ends (.closed h (h.params.map .param) base interfaces) := by
  have within := (H.instantiateWithin_isSome_iff H.depth h args).mp (Option.isSome_of_mem made)
  rw [← arity, ← List.length_map Ty.param] at within
  obtain ⟨own, hown⟩ := Option.isSome_iff_exists.mp ((H.instantiateWithin_isSome_iff H.depth _ _).mpr within)
  obtain ⟨base, interfaces, rfl⟩ := exists_closed_of_instantiate? hown
  refine ⟨base, interfaces, hown, fun a ha endless => endless.not_endsWithin H.depth ?_⟩
  have same : h.params ≠ [] ∧ a = (h, h.params.length) := by simpa [Ty.applied, Ty.mem_appliedAll] using ha
  simpa [same.2] using within

/-- **Substitutions compose**, where instantiations end. One environment behind another gives the same key as the one
that puts the second into the values of the first; an environment without the parameters of a type keeps its key; and a
definition applied to its own parameters gives the key of each instantiation, in the environment of that. -/
theorem substitution_composes (H : Hierarchy) {t : Ty} (ends : H.Ends t) :
    (∀ e₁ e₂ e : TypeEnv, (∀ n r, e₁.get? n = some r → H.Ends r) →
      (∀ n, e.get? n = ((e₁.get? n).map (H.substitute? e₂)).getD (e₂.get? n)) →
      ∃ t₁ t₂ u, H.substitute? e₁ t = some t₁ ∧ H.substitute? e₂ t₁ = some t₂ ∧ H.substitute? e t = some u ∧
        u.key = t₂.key) ∧
    (∀ e : TypeEnv, (∀ n, t.Mentions n → e.get? n = none) → ∃ u, H.substitute? e t = some u ∧ u.key = t.key) ∧
    ∀ (d : TypeHead) (args : List Ty), d.params.Nodup → d.params.length = args.length → H.instantiate? d args = some t →
      ∃ env own u, t.env? = some env ∧ H.instantiate? d (d.params.map .param) = some own ∧
        H.substitute? env own = some u ∧ u.key = t.key := by
  refine ⟨fun e₁ e₂ e values composite => ?_, fun e fresh => ?_, fun d args nodup arity made => ?_⟩
  · obtain ⟨t₁, first⟩ := ends.exists_substitute? e₁
    obtain ⟨shown, ends₁⟩ := substitute?_shows first
    obtain ⟨t₂, second⟩ := (ends₁ values ends).exists_substitute? e₂
    obtain ⟨u, once⟩ := ends.exists_substitute? e
    refine ⟨t₁, t₂, u, first, second, once, ?_⟩
    rw [key_substitute? once, key_substitute? second, shown]
    congr 1
    funext n
    rw [Ty.keyIn, Ty.keyIn, composite]
    cases found : e₁.get? n with
    | none => rfl
    | some r =>
      obtain ⟨r', put⟩ := (values n r found).exists_substitute? e₂
      simp [put, Ty.keyUnder_mark, key_substitute? put]
  · obtain ⟨u, put⟩ := ends.exists_substitute? e
    refine ⟨u, put, ?_⟩
    rw [key_substitute? put, ← Ty.keyUnder_mark]
    refine Ty.keyUnder_congr fun n mentioned => ?_
    rw [Ty.keyIn, fresh n mentioned]
    rfl
  · obtain ⟨base, interfaces, hown, ends⟩ := exists_own arity made
    obtain ⟨u, put⟩ := ends.exists_substitute? (TypeEnv.ofParams d.params args)
    obtain ⟨base', interfaces', rfl⟩ := exists_closed_of_instantiate? made
    refine ⟨_, _, u, if_pos arity.symm, hown, put, ?_⟩
    rw [key_substitute? put, ← Ty.keyUnder_mark, Ty.keyUnder, Ty.keyUnder, ← Ty.map_keyIn_ofParams nodup arity, List.map_map]
    simp only [Function.comp_def, Ty.keyUnder]

theorem substitution_composes_sequence :
    ∃ t : Ty, t = .closed Ty.enumerableOfHead [.array (.param "K")] none [] ∧ Ends {} t ∧
      ∃ t₁ t₂ u, substitute? {} [("K", .param "V")] t = some t₁ ∧ substitute? {} [("V", .string)] t₁ = some t₂ ∧
        substitute? {} [("K", .string), ("V", .string)] t = some u ∧ u.key = t₂.key := by
  have within : EndsWithin {} 1 (Ty.enumerableOfHead, 1) :=
    (instantiateWithin_isSome_iff (H := {}) 1 Ty.enumerableOfHead [.string]).mp (by decide +kernel)
  have ends : Ends {} (.closed Ty.enumerableOfHead [.array (.param "K")] none []) := by
    intro a ha endless
    obtain rfl : a = (Ty.enumerableOfHead, 1) := List.mem_singleton.mp ha
    exact endless.not_endsWithin _ within
  refine ⟨_, rfl, ends, (substitution_composes {} ends).1 _ _ _ (fun n r found => ?_) fun n => ?_⟩
  · obtain ⟨rfl, rfl⟩ : n = "K" ∧ r = .param "V" := by simpa using mem_of_lookup found
    simp [Ends, Ty.applied]
  · by_cases first : n = "K"
    · subst first
      rfl
    · have other : (n == "K") = false := beq_false_of_ne first
      simp [TypeEnv.get?, List.lookup_cons, other]

end Hierarchy

end Polyglot
