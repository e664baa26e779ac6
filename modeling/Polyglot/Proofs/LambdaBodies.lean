import Polyglot.Prelude
import Polyglot.Proofs.DeclaredMembers
import Polyglot.Proofs.KeptLambdas

/-!
# Lambdas keep their bodies

A lambda among arguments waits until it is known which parameter it meets: until then an empty lambda stands in its place. Every
call that comes to be bound to nothing resolves the lambdas that still wait. The chain of a constructor does not: it is emitted
with the empty ones.
-/

namespace Polyglot

open List Resolve Resolver

/-! ## Lists in step -/

section Lists

variable {α β γ δ : Type} {R : γ → δ → Prop}

/-- Two pairs of lists are in step one behind the other only if each is, when no list on the right is longer. -/
theorem forall₂_append_iff {as cs : List γ} {bs ds : List δ} (first : bs.length ≤ as.length) (second : ds.length ≤ cs.length) :
    Forall₂ R (as ++ cs) (bs ++ ds) ↔ Forall₂ R as bs ∧ Forall₂ R cs ds := by
  constructor
  · intro both
    have lengths := both.length_eq
    simp only [length_append] at lengths
    have same : bs.length = as.length := by omega
    have front := forall₂_take_append _ bs ds both
    have back := forall₂_drop_append _ bs ds both
    rw [same] at front back
    exact ⟨by simpa using front, by simpa using back⟩
  · rintro ⟨front, back⟩
    exact rel_append front back

variable {as : List α} {bs : List β} {f : α → List γ} {g : β → List δ}

theorem length_flatMap_le (pairs : Forall₂ (fun a b => (g b).length ≤ (f a).length) as bs) :
    (bs.flatMap g).length ≤ (as.flatMap f).length := by
  induction pairs with
  | nil => exact Nat.le_refl _
  | cons here _ ih =>
    simp only [flatMap_cons, length_append]
    omega

theorem forall₂_flatMap_iff (pairs : Forall₂ (fun a b => (g b).length ≤ (f a).length) as bs) :
    Forall₂ R (as.flatMap f) (bs.flatMap g) ↔ Forall₂ (fun a b => Forall₂ R (f a) (g b)) as bs := by
  induction pairs with
  | nil => exact iff_of_true .nil .nil
  | cons here rest ih =>
    rw [flatMap_cons, flatMap_cons, forall₂_append_iff here (length_flatMap_le rest), ih, forall₂_cons]

end Lists

/-! ## Chains -/

def AreEmpty (ds : List (Option Draft)) : Prop :=
  ∀ d, some d ∈ ds → d.kind = "lambda" → d.parameters = [] ∧ d.body = none

theorem resolvedAll_eq (ds : List (Option Draft)) : resolvedAll ds = ds.flatMap resolvedOpt := by
  induction ds with
  | nil => rfl
  | cons d ds ih =>
    cases d with
    | none => exact ih
    | some d => exact congrArg (d.resolved ++ ·) ih

/-- An argument that is left as it is. -/
theorem kept_bare_iff_of_fresh {d : Draft} {p : Pending} (awaits : p.Awaits d) (fresh : p.isDone ↔ d.kind ≠ "lambda") :
    (Node.expr p.bare).lambdas.length ≤ d.resolved.length ∧
      (Kept d.resolved (Node.expr p.bare).lambdas ↔ (d.kind = "lambda" → d.parameters = [] ∧ d.body = none)) := by
  cases p with
  | done e => exact ⟨(awaits.length_eq).ge, iff_of_true awaits fun isLambda => absurd isLambda (fresh.mp rfl)⟩
  | lambda mark l =>
    obtain ⟨rfl, known, line, column⟩ := awaits
    have isLambda : l.kind = "lambda" := Decidable.not_not.mp fun other => nomatch fresh.mpr other
    have parts : l.resolved = l :: resolvedOpt l.body := by
      rw [Draft.resolved_eq known]
      simp [NodeKind.parts, Draft.resolvedPart]
    have bare : (Node.expr (Pending.lambda mark l).bare).lambdas = [.expr (.node mark (.lambda [] none))] := lambdas_lambda ..
    rw [parts, bare]
    refine ⟨Nat.succ_le_succ (Nat.zero_le _), ?_⟩
    refine forall₂_cons.trans ⟨?_, fun empty => ?_⟩
    · rintro ⟨⟨-, -, names, body⟩, -⟩ -
      have noBody : ¬ l.body.isSome := by simp [← body, Node.hasBody]
      exact ⟨map_eq_nil_iff.mp (Option.some.inj names).symm, Option.not_isSome_iff_eq_none.mp noBody⟩
    · obtain ⟨none, missing⟩ := empty isLambda
      rw [missing]
      refine ⟨⟨line, column, ?_, ?_⟩, .nil⟩
      · rw [none]
        rfl
      · rw [missing]
        rfl

theorem kept_bareArguments_iff {ds : List (Option Draft)} {args : List (Argument Pending)} (fresh : FreshAll ds args) :
    (lambdasOfArgs (bareArguments args)).length ≤ (resolvedAll ds).length ∧
      (Kept (resolvedAll ds) (lambdasOfArgs (bareArguments args)) ↔ AreEmpty ds) := by
  have shorter : Forall₂ (fun d a => (Node.expr a.value.bare).lambdas.length ≤ (resolvedOpt d).length) ds args := by
    refine fresh.imp fun d a ⟨draft, here, awaits, waits⟩ => ?_
    rw [here]
    exact (kept_bare_iff_of_fresh awaits waits).1
  have bare : lambdasOfArgs (bareArguments args) = args.flatMap fun a => (Node.expr a.value.bare).lambdas :=
    flatMap_map ..
  rw [resolvedAll_eq, bare]
  refine ⟨length_flatMap_le shorter, (forall₂_flatMap_iff shorter).trans ?_⟩
  clear bare shorter
  induction fresh with
  | nil => exact iff_of_true .nil fun _ mem => absurd mem not_mem_nil
  | cons here _ ih =>
    obtain ⟨draft, rfl, awaits, waits⟩ := here
    rw [forall₂_cons, ih]
    refine (and_congr (kept_bare_iff_of_fresh awaits waits).2 Iff.rfl).trans ?_
    simp [AreEmpty]

/-- **What a chain keeps**: all the lambdas of its arguments, if and only if it is bound or has only empty ones. -/
def ChainDraft.Keeps (c : ChainDraft) (e : Expr) : Prop :=
  (Node.expr e).lambdas.length ≤ (resolvedAll c.args).length ∧
    (Kept (resolvedAll c.args) (Node.expr e).lambdas ↔ e.symbol.isSome ∨ AreEmpty c.args)

theorem resolves_chain (c : ChainDraft) (line : Int) : Resolves c.Keeps (Resolve.chain c line) := by
  have keeps := within_keepsLambdas (2 * depthAll c.args + 1)
  refine .behind fun here => ?_
  extract_lets w mark r call
  have calls (owner : Option Ty) {target : ExprForm} (isLeaf : target = .this ∨ target = .base) :
      Resolves c.Keeps (call owner target) := by
    have inside (m : Mark) (args : List (Argument Expr)) :
        (Node.expr (.node m (.call (.node mark target) [] args))).lambdas = lambdasOfArgs args := by
      rw [lambdas_call]
      rcases isLeaf with rfl | rfl <;> rfl
    refine (keeps.arguments c.args).resolves.bind fun args fresh => ?_
    have unbound : c.Keeps (.node mark (.call (.node mark target) [] (bareArguments args))) := by
      rw [ChainDraft.Keeps, inside]
      simpa [Expr.symbol, Expr.mark, mark] using kept_bareArguments_iff fresh
    split
    · exact .pure unbound
    · refine .behind fun found => ?_
      split
      · exact .pure unbound
      · refine (keeps.bindStatic _ _ _ _ fresh.await).resolves.bind fun b all => .pure ?_
        rw [ChainDraft.Keeps, inside]
        exact ⟨all.kept.length_eq.ge, iff_of_true all.kept (.inl rfl)⟩
  split
  · exact calls _ (.inl rfl)
  · exact calls _ (.inr rfl)
  · exact calls _ (.inr rfl)
  · exact .fail _ _

/-! ## Members -/

namespace MemberDraft

def lambdas (d : MemberDraft) : List Draft :=
  lambdasInOpt .all d.initializer ++ (lambdasInAll .all false ((d.chain.map (·.args)).getD []) ++
    (lambdasInOpt .all d.getter ++ (lambdasInOpt .all d.setter ++ lambdasInOpt .all d.body)))

def resolved (d : MemberDraft) : List Draft :=
  match MemberKind.ofText? d.kind with
  | some .field | some .event => resolvedOpt d.initializer
  | some .property => resolvedOpt d.initializer ++ (resolvedOpt d.getter ++ resolvedOpt d.setter)
  | some .constructor => resolvedAll ((d.chain.map (·.args)).getD []) ++ resolvedOpt d.body
  | some .method | some .operator => resolvedOpt d.body
  | none => []

theorem resolved_sublist (d : MemberDraft) : d.resolved.Sublist d.lambdas := by
  have none (l : List Draft) : ([] : List Draft).Sublist l := nil_sublist l
  have initializer : (resolvedOpt d.initializer).Sublist _ := lambdasInOpt_sublist d.initializer
  have chain : (resolvedAll ((d.chain.map (·.args)).getD [])).Sublist _ := lambdasInAll_sublist false _
  have getter : (resolvedOpt d.getter).Sublist _ := lambdasInOpt_sublist d.getter
  have setter : (resolvedOpt d.setter).Sublist _ := lambdasInOpt_sublist d.setter
  have body : (resolvedOpt d.body).Sublist _ := lambdasInOpt_sublist d.body
  unfold resolved lambdas
  split
  case h_1 | h_2 => simpa using initializer.append (none _)
  case h_3 => simpa using initializer.append ((none _).append (getter.append (setter.append (none _))))
  case h_4 => exact (none _).append (chain.append ((none _).append ((none _).append body)))
  case h_5 | h_6 => exact (none _).append ((none _).append ((none _).append ((none _).append body)))
  case h_7 => exact none _

/-- **The chain of a constructor keeps its lambdas**: it is bound to a constructor, or the lambdas among its arguments have
neither parameters nor a body. -/
def KeepsChain (d : MemberDraft) (m : Member) : Prop :=
  m.kind = .constructor → ∀ c, d.chain = some c → (m.chain.bind (·.symbol)).isSome ∨ AreEmpty c.args

end MemberDraft

def Member.lambdas (m : Member) : List Node := m.trees.flatMap Node.lambdas

theorem Member.lambdas_eq (m : Member) : m.lambdas = lambdasOf m.initializer ++ (lambdasOf m.chain ++ (lambdasOfStmt m.getter ++
    (lambdasOfStmt m.setter ++ lambdasOfStmt m.body))) := by
  simp only [lambdas, trees, flatMap_append, flatMap_map, append_assoc]
  rfl

namespace Compilation

theorem resolves_bodyOf (d : Option Draft) (returns : Option Ty) :
    Resolves (fun s => Kept (resolvedOpt d) (lambdasOfStmt s)) (bodyOf d returns) := by
  cases d with
  | none => exact .pure .nil
  | some d =>
    exact .behind fun _ => ((within_keepsLambdas _).block d).resolves.bind fun s kept => .pure ((lambdasOfStmt_some s).symm ▸ kept)

theorem resolves_initializerOf (d : MemberDraft) (type : Option Ty) :
    Resolves (fun e => Kept (resolvedOpt d.initializer) (lambdasOf e)) (initializerOf d type) := by
  unfold initializerOf
  split
  · next missing => exact .pure (missing ▸ .nil)
  · next e given =>
    rw [given]
    exact ((within_keepsLambdas _).expr e type).resolves.bind fun e kept => .pure ((lambdasOf_some e).symm ▸ kept)

/-- **What a member keeps**: all its lambdas, if and only if its chain does. -/
def KeepsMember (d : MemberDraft) (m : Member) : Prop :=
  m.lambdas.length ≤ d.resolved.length ∧ (Kept d.resolved m.lambdas ↔ d.KeepsChain m)

theorem resolves_member {d : MemberDraft} {m : Member} (bare : IsBare d m) : Resolves (KeepsMember d) (resolveMember d m) := by
  have plain {m' : Member} (other : m'.kind ≠ .constructor) (kept : Kept d.resolved m'.lambdas) : KeepsMember d m' :=
    ⟨kept.length_eq.ge, iff_of_true kept fun isConstructor => absurd isConstructor other⟩
  obtain ⟨known, blank⟩ := bare
  obtain ⟨kind, symbol, place, _, _, _, _, _⟩ := m
  cases blank
  refine .nested (.behind fun _ => ?_)
  have parts : d.resolved = d.resolved := rfl
  conv_rhs at parts => rw [MemberDraft.resolved, known]
  cases kind with
  | field | event =>
    refine (resolves_initializerOf d _).bind fun e kept => .pure (plain nofun ?_)
    rw [parts, Member.lambdas_eq]
    simpa using kept
  | property =>
    refine (resolves_initializerOf d _).bind fun e first => (resolves_bodyOf d.getter _).bind fun getter second =>
      (Resolves.nested (.behind fun _ => resolves_bodyOf d.setter _)).bind fun setter third => .pure (plain nofun ?_)
    rw [parts, Member.lambdas_eq]
    simpa using rel_append first (rel_append second third)
  | constructor =>
    refine .behind fun _ => ?_
    simp only [pure_bind]
    cases given : d.chain with
    | none =>
      refine (resolves_bodyOf d.body _).bind fun body kept => .pure ?_
      rw [given] at parts
      rw [KeepsMember, parts, Member.lambdas_eq]
      exact ⟨kept.length_eq.ge, iff_of_true kept fun _ _ same => nomatch given.symm.trans same⟩
    | some c =>
      refine (resolves_chain c d.line).bind fun e ⟨shorter, chains⟩ => (resolves_bodyOf d.body _).bind fun body kept => .pure ?_
      have inside : Member.lambdas { kind := .constructor, symbol, place, chain := some e, body } =
          (Node.expr e).lambdas ++ lambdasOfStmt body := by rw [← lambdasOf_some e]; exact Member.lambdas_eq _
      rw [given, Option.map_some, Option.getD_some] at parts
      rw [KeepsMember, inside, parts, length_append, length_append, kept.length_eq]
      refine ⟨Nat.add_le_add_right shorter _, (forall₂_append_iff shorter kept.length_eq.ge).trans ?_⟩
      rw [and_iff_left kept]
      refine chains.trans ⟨fun keeps _ c' same => ?_, fun keeps => keeps rfl c given⟩
      cases given.symm.trans same
      exact keeps
  | method | operator =>
    refine (resolves_bodyOf d.body _).bind fun body kept => .pure (plain nofun ?_)
    rw [parts, Member.lambdas_eq]
    exact kept

/-! ## Documents -/

/-- The drafts and the members of a type, one by one. -/
abbrev Members (P : MemberDraft → Member → Prop) (ds : List (Option MemberDraft)) (ms : List Member) : Prop :=
  Forall₂ (fun d m => ∃ draft, d = some draft ∧ P draft m) ds ms

section Passes

variable {w w' : World} {e : Entry} {ds : List (Option MemberDraft)} {ms : List Member}

theorem declareMemberList_bare (run : declareMemberList e ds w = .ok (w', ms)) : Members IsBare ds ms := by
  obtain ⟨drafts, rfl, steps⟩ := declareMemberList_threaded run
  exact forall₂_map_left_iff.mpr (steps.forall₂ fun step => ⟨_, rfl, step.1⟩)

theorem declareMembers_bare {d : TypeDecl} (run : declareMembers w e = .ok (w', d)) :
    Members IsBare e.draft.members d.members := by
  obtain ⟨⟨w₁, invoke⟩, hinvoke, run⟩ := bind_eq_ok.mp run
  obtain ⟨⟨w₂, members⟩, hmembers, run⟩ := bind_eq_ok.mp run
  cases run
  exact declareMemberList_bare hmembers

theorem resolveMembers_keepsLambdas {ms' : List Member} (bare : Members IsBare ds ms)
    (run : resolveMembers w e ds ms = .ok ms') : Members KeepsMember ds ms' := by
  induction bare generalizing ms' with
  | nil =>
    cases run
    exact .nil
  | cons here _ ih =>
    obtain ⟨d, rfl, here⟩ := here
    obtain ⟨⟨m', _⟩, ran, run⟩ := bind_eq_ok.mp run
    obtain ⟨rest', rest, run⟩ := bind_eq_ok.mp run
    cases run
    exact .cons ⟨d, rfl, resolves_member here _ _ _ _ ran⟩ (ih rest)

theorem declareTypes_drafts {isExternal : Bool} {types : List (Option TypeDraft)} {es : List Entry}
    (run : declareTypes isExternal types w = .ok (w', es)) : types = es.map (some ·.draft) := by
  obtain ⟨drafts, rfl, steps⟩ := declareTypes_threaded run
  refine map_eq_map_of_forall₂ (steps.forall₂ fun step => ?_)
  rcases declareType_eq_ok step with ⟨_, -, -, -, rfl⟩ | ⟨-, -, rfl⟩ <;> rfl

end Passes

end Compilation

/-- The members of all types that are there. -/
def membersOf (types : List (Option TypeDraft)) : List (Option MemberDraft) :=
  types.flatMap fun t => (t.map (·.members)).getD []

namespace Document

/-- The lambdas that are written in a document. -/
def lambdas (doc : Document) : List Draft :=
  (membersOf doc.types ++ membersOf doc.externals).flatMap fun d => (d.map MemberDraft.lambdas).getD []

/-- The lambdas that stand where a document is resolved: in the members of types that are emitted. -/
def resolved (doc : Document) : List Draft := (membersOf doc.types).flatMap fun d => (d.map MemberDraft.resolved).getD []

theorem resolved_sublist (doc : Document) : doc.resolved.Sublist doc.lambdas := by
  have own (ds : List (Option MemberDraft)) : (ds.flatMap fun d => (d.map MemberDraft.resolved).getD []).Sublist
      (ds.flatMap fun d => (d.map MemberDraft.lambdas).getD []) := by
    induction ds with
    | nil => exact .slnil
    | cons d ds ih =>
      cases d with
      | none => exact ih
      | some d => exact .append d.resolved_sublist ih
  rw [lambdas, flatMap_append]
  exact (own (membersOf doc.types)).trans (sublist_append_left _ _)

end Document

namespace Compilation

/-- The members that are emitted. -/
def members (c : Compilation) : List Member := c.types.flatMap (·.members)

/-- The lambdas of a compilation. -/
def lambdas (c : Compilation) : List Node := c.members.flatMap Member.lambdas

variable {prelude : List TypeDraft} {file : String} {doc : Document} {c : Compilation}

theorem members_of_load (load : ofDocument prelude file doc = .ok c) : Members KeepsMember (membersOf doc.types) c.members := by
  obtain ⟨_, _, _, _, _, own, _, own', -, hown, -, -, entered, bodies⟩ := ofDocument_eq_ok load
  rw [declareTypes_drafts hown, membersOf, flatMap_map]
  refine rel_flatMap (R := fun e d => Members KeepsMember e.draft.members d.members) ?_ fun _ _ keeps => keeps
  have bare : Forall₂ (fun e x => x.1 = e ∧ Members IsBare e.draft.members x.2.members) own own' :=
    entered.forall₂ fun step => ⟨step.1, declareMembers_bare step.2⟩
  refine forall₂_trans ?_ bare (resolveBodies_eq_ok bodies)
  rintro _ x _ ⟨rfl, bare⟩ ⟨members, run, rfl⟩
  exact resolveMembers_keepsLambdas bare run

/-- **When lambdas keep their bodies.** Every lambda of a document is there in its compilation, in order, with its parameters and
with a body if it has one, if and only if

- none stands in a part that is never resolved: a field that its node has no use for, the name of a member of an anonymous object,
  the default value of a parameter of a lambda, a field that a member of its kind does not have, a member of an external type;
- every chain of a constructor is bound to a constructor, or has no lambda with parameters or a body among its arguments.

Whether any other call is bound, to what, and how deep a lambda stands in it, does not matter. -/
theorem lambdas_kept_iff (load : ofDocument prelude file doc = .ok c) :
    Kept doc.lambdas c.lambdas ↔
      doc.resolved = doc.lambdas ∧ Members MemberDraft.KeepsChain (membersOf doc.types) c.members := by
  have members := members_of_load load
  have shorter : List.Forall₂
      (fun (d : Option MemberDraft) m => m.lambdas.length ≤ ((d.map MemberDraft.resolved).getD []).length)
      (membersOf doc.types) c.members := by
    refine members.imp fun d m ⟨draft, here, keeps⟩ => ?_
    rw [here]
    exact keeps.1
  have resolved : Kept doc.resolved c.lambdas ↔ Members MemberDraft.KeepsChain (membersOf doc.types) c.members := by
    have same (d : Option MemberDraft) (m : Member) (keeps : ∃ draft, d = some draft ∧ KeepsMember draft m) :
        Kept ((d.map MemberDraft.resolved).getD []) m.lambdas ↔ ∃ draft, d = some draft ∧ draft.KeepsChain m := by
      obtain ⟨draft, rfl, keeps⟩ := keeps
      exact keeps.2.trans ⟨fun keeps => ⟨draft, rfl, keeps⟩, fun ⟨_, here, keeps⟩ => Option.some.inj here ▸ keeps⟩
    exact (forall₂_flatMap_iff shorter).trans
      ⟨List.Forall₂.mp (fun d m keeps => (same d m keeps).mp) members,
        List.Forall₂.mp (fun d m keeps => (same d m keeps).mpr) members⟩
  constructor
  · intro kept
    have few : c.lambdas.length ≤ doc.resolved.length := length_flatMap_le shorter
    have same : doc.resolved = doc.lambdas := doc.resolved_sublist.eq_of_length_le (kept.length_eq.trans_le few)
    exact ⟨same, resolved.mp (same ▸ kept)⟩
  · rintro ⟨same, keeps⟩
    exact same ▸ resolved.mpr keeps

/-- A lambda that gives back what it is given. -/
def identityLambda : Draft :=
  { kind := "lambda", parameters := [some { name := "x" }], body := some { kind := "identifier", name := "x" } }

def passingLambda : MemberDraft := { kind := "constructor", chain := some { args := [some identityLambda] } }

def boundChain : Document where
  types := [
    some { kind := "delegate", name := "N.F"
           invoke := some { type := "int", parameters := [some { name := "x", type := "int" }] } },
    some { kind := "class", name := "N.B"
           members := [some { kind := "constructor", parameters := [some { name := "f", type := "N.F" }] }] },
    some { kind := "class", name := "N.A", base := "N.B", members := [some passingLambda] }]

/-- The chain is bound to the constructor of the base, and the lambda keeps its parameter and its body. -/
theorem lambdas_kept_boundChain : ∃ c, ofDocument Prelude.types "" boundChain = .ok c ∧
    boundChain.lambdas = [identityLambda] ∧ Kept boundChain.lambdas c.lambdas := by
  have loaded : (ofDocument Prelude.types "" boundChain).toOption.any
      (fun c => decide (c.members.map (fun m => (m.chain.bind (·.symbol)).isSome) = [false, true])) = true := by
    decide +kernel
  obtain ⟨c, load, bound⟩ := exists_ok_of_any loaded
  obtain ⟨first, rest, members, -, bound⟩ := map_eq_cons_iff.mp (of_decide_eq_true bound)
  obtain ⟨second, rest, rfl, isBound, none⟩ := map_eq_cons_iff.mp bound
  cases map_eq_nil_iff.mp none
  refine ⟨c, load, rfl, (lambdas_kept_iff load).mpr ⟨rfl, ?_⟩⟩
  rw [members]
  exact .cons ⟨_, rfl, fun _ _ chain => nomatch chain⟩ (.cons ⟨passingLambda, rfl, fun _ _ _ => .inl isBound⟩ .nil)

/-- A class without a base. -/
def unboundChain : Document where
  types := [some { kind := "class", name := "N.A", members := [some passingLambda] }]

/-- Without a base there is nothing that the chain could be bound to, and the lambda loses its parameter and its body. -/
theorem lambda_lost_unboundChain : ∃ c, ofDocument Prelude.types "" unboundChain = .ok c ∧
    ¬ Kept unboundChain.lambdas c.lambdas :=
  exists_ok_of_decide (by decide +kernel)

end Compilation

end Polyglot
