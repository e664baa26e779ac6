import Polyglot.Proofs.KeptLambdas

/-!
# Scopes are lexical

What a draft declares is in reach of what follows it on its own level, and of nothing outside: a block, a branch, the body of
a loop, a handler and a lambda leave the locals as they were.
-/

namespace Polyglot

namespace Locals

variable {l : Locals}

theorem find?_declare (s : Symbol) (name : String) :
    (l.declare s).find? name = if name = s.name then some s else l.find? name := by
  unfold declare find?
  split
  · next bare => simp [bare, lookup_cons_ite]
  · next frame rest stack =>
    rw [stack, List.findSome?_cons, List.findSome?_cons, lookup_cons_ite]
    by_cases same : name = s.name <;> simp [same]

/-- **The last declaration of a name counts**, and what the name meant before where there is none. -/
theorem find?_foldl_declare (symbols : List Symbol) (name : String) :
    (symbols.foldl declare l).find? name = (symbols.reverse.find? (·.name = name)).or (l.find? name) := by
  induction symbols generalizing l with
  | nil => rfl
  | cons s symbols ih =>
    rw [List.foldl_cons, ih, find?_declare, List.reverse_cons, List.find?_append, Option.or_assoc]
    by_cases same : name = s.name
    · simp [same]
    · simp [same, Ne.symm same]

end Locals

namespace Resolve

variable {levels : Nat} {d : Draft} {here : Surroundings} {l l' : Locals}

/-- A draft declares its own names, in order. -/
theorem exists_declared (run : (∃ expected e, (Resolver.within levels).expr d expected here l = .ok (e, l')) ∨
      ∃ t, (Resolver.within levels).stmt d here l = .ok (t, l')) :
    ∃ symbols : List Symbol, symbols.map (·.name) = d.declared ∧ l' = symbols.foldl Locals.declare l := by
  have keeps := Resolver.within_keepsLambdas levels
  rcases run with ⟨expected, e, run⟩ | ⟨t, run⟩
  · exact (keeps.expr d expected here l e l' run).2
  · exact (keeps.stmt d here l t l' run).2

/-- **Scopes are lexical.** After an expression or a statement the stack of frames is as high as before, the frames below the
top are the same, and so is what is returned. The top frame has got the names that the draft declares on its own level, in
order, and each name means the last of these or what it meant before; so nothing from a block, a branch, a loop, a handler or
a lambda in the draft is in reach afterwards. A block leaves the locals as they were. -/
theorem scopes_lexical {levels : Nat} {d : Draft} {here : Surroundings} {l l' : Locals} {top : List (String × Symbol)}
    {below : List (List (String × Symbol))} (stack : l.frames = top :: below) :
    ((∃ expected e, (Resolver.within levels).expr d expected here l = .ok (e, l')) ∨
        (∃ t, (Resolver.within levels).stmt d here l = .ok (t, l')) →
      ∃ symbols : List Symbol, symbols.map (·.name) = d.declared ∧
        l'.frames = ((symbols.reverse.map fun s => (s.name, s)) ++ top) :: below ∧ l'.returns = l.returns ∧
        ∀ name, l'.find? name = (symbols.reverse.find? (·.name = name)).or (l.find? name)) ∧
    ∀ t, (Resolver.within levels).block d here l = .ok (t, l') → l' = l := by
  constructor
  · intro run
    obtain ⟨symbols, names, rfl⟩ := exists_declared run
    refine ⟨symbols, names, ?_, Locals.returns_foldl_declare symbols, Locals.find?_foldl_declare symbols⟩
    rw [Locals.foldl_declare stack]
  · intro t run
    obtain ⟨-, symbols, none, rfl⟩ := (Resolver.within_keepsLambdas levels).block d here l t l' run
    rw [List.map_eq_nil_iff.mp none]
    rfl

/-- A test of a type that names the value, with a local in the branch. -/
def patternBranch : Draft where
  kind := "if"
  cond := some { kind := "is", name := "s", type := "string", target := some { kind := "identifier", name := "x" } }
  yes := some { kind := "local", name := "t", type := "int" }

/-- The name of the pattern is in reach behind the statement, and the local of the branch is not. -/
theorem scopes_lexical_patternBranch :
    ∃ t l', (Resolver.within 3).stmt patternBranch { world := {} } { frames := [[], []] } = .ok (t, l') ∧
    l'.frames.map (·.map (·.1)) = [["s"], []] ∧ l'.find? "t" = none := by
  have ran : ((Resolver.within 3).stmt patternBranch { world := {} } { frames := [[], []] }).toOption.any (fun _ => true) = true := by
    decide +kernel
  obtain ⟨⟨t, l'⟩, run, -⟩ := exists_ok_of_any ran
  obtain ⟨symbols, names, frames, -, found⟩ := (scopes_lexical rfl).1 (.inr ⟨t, run⟩)
  have names : symbols.map (·.name) = ["s"] := names
  refine ⟨t, l', run, ?_, ?_⟩
  · rw [frames]
    simpa [Function.comp_def] using congrArg List.reverse names
  · obtain ⟨s, rfl, isS⟩ := List.map_eq_singleton_iff.mp names
    rw [found]
    simp [isS, Locals.find?]

end Resolve

end Polyglot
