import Polyglot.Proofs.WeakFields.Positions

/-!
# Trees agree

If the parts of a tree are emitted alike, so is the tree, as long as it does not change something itself: agreement is
one of the relations that lead from parts to trees. A change is like itself, since it leaves the flag off.
-/

namespace Polyglot

namespace Emit

variable {r r' : Emitter} {k : Bool}

variable {e : Option Expr} {α : Type}

theorem get_bind (f : Sheet → Emit α) (scene : Scene) (sheet : Sheet) : (get >>= f) scene sheet = f sheet scene sheet := rfl

theorem modify_bind (f : Sheet → Sheet) (next : PUnit → Emit α) (scene : Scene) (sheet : Sheet) :
    (modify f >>= next) scene sheet = next () scene (f sheet) := rfl

/-- The index of a Rust array is emitted with the flag off, and then the flag is put back. -/
theorem alike_rustIndex {target index : Option Expr} (elem : Option Ty) (position : Alike k (r.value index) (r'.value index))
    (array : Alike k (r.operand target Prec.postfixed) (r'.operand target Prec.postfixed)) :
    Alike k (rustIndex r target index elem) (rustIndex r' target index elem) := by
  intro scene sheet flag
  unfold rustIndex
  simp only [get_bind, modify_bind]
  rw [bind_apply, bind_apply]
  have inner := position scene { sheet with mutating := false } fun _ => rfl
  rcases inner with ⟨isTrue, refused⟩ | ⟨same, -⟩
  · refine .inl ⟨isTrue, ?_⟩
    cases result : r'.value index scene { sheet with mutating := false } with
    | mk outcome inner =>
      rw [result] at refused
      obtain rfl : outcome = .error refusal := refused
      rfl
  · rw [← same]
    cases r.value index scene { sheet with mutating := false } with
    | mk outcome inner =>
      cases outcome with
      | error f => exact .inr ⟨rfl, by rintro a after ⟨⟩⟩
      | ok i =>
        refine array.bind (fun x => ?_) scene { inner with mutating := sheet.mutating } flag
        cases elem with
        | none => exact (Keeps.pure _).alike
        | some elem => exact (Keeps.pure _).alike

/-- **Agreement is a logic of statements.** It knows no levels. -/
def agreement (k : Bool) : LevelLogic where
  Holds := Alike k
  quiet quiet := Keeps.alike fun scene sheet => congrArg (·.2.1) (quiet scene sheet)
  bind := Alike.bind
  rustIndex := alike_rustIndex
  Runs _ _ _ := Alike k
  runs := id
  written _ steady := Keeps.alike fun scene sheet => congrArg Prod.fst (steady scene sheet)
  andThen := Alike.bind
  inHandler name alike := alike.inHandler name
  capture alike := (alike 0).capture

theorem alike_trees (parts : r.Alike k r') : (agreement k).Trees r r' :=
  ⟨parts.bare, parts.action, fun s _ => parts.stmt s⟩

/-! ## Changes -/

theorem value_congr (same : ∀ c ∈ e, r.bare c = r'.bare c) : r.value e = r'.value e := by
  cases e with
  | none => rfl
  | some c => exact congrArg (· >>= Emitter.convert c) (same c rfl)

theorem memberLead_congr (same : ∀ c ∈ e, r.bare c = r'.bare c) (s : Symbol) : memberLead r e s = memberLead r' e s := by
  unfold memberLead receiverOf
  rw [value_congr same]

/-- **Expressions agree** if their parts do. One that changes something has to emit its places the same way. -/
theorem alike_expression (parts : r.Alike k r') {isStatement : Bool} {e : Expr}
    (same : e.changes isStatement = true → k = false ∧ ∀ c ∈ e.places, r.bare c = r'.bare c) :
    Alike k (expression r isStatement e) (expression r' isStatement e) := by
  refine holds_expression (alike_trees parts).logic isStatement e (fun operand form => ?_) fun left right form => ?_
  · refine holds_unary (alike_trees parts).logic fun isChange => ?_
    obtain ⟨rfl, places⟩ := same (by simpa [Expr.changes, form] using isChange)
    have place : r.value operand = r'.value operand := value_congr fun c here => places c (by simp_all [Expr.places])
    rw [place]
    exact Alike.mutably _
  · obtain ⟨rfl, places⟩ := same (by simp [Expr.changes, form])
    have place : r.value left = r'.value left := value_congr fun c here => places c (by simp_all [Expr.places])
    refine holds_assignment (alike_trees parts).logic e ?_ fun l s here => ?_
    · rw [place]
      exact Alike.mutably _
    · have lead : memberLead r (assignedOn l).1 s = memberLead r' (assignedOn l).1 s :=
        memberLead_congr (fun c here => places c (by simp_all [Expr.places])) s
      rw [lead]
      exact Alike.mutably _

/-- **Statements agree** if their parts do. -/
theorem alike_statement (parts : r.Alike k r') (s : Stmt) : Alike k (statement r s) (statement r' s) :=
  @runs_statement (agreement k) r r' 0 (alike_trees parts) s

end Emit

end Polyglot
