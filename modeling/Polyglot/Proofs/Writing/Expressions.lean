import Polyglot.Proofs.Writing.Notes

/-!
# Expressions from their parts

There is one lemma for each function that renders a construct, for all the relations between two ways to emit that are kept by
putting emissions one behind the other (`Emit.Logic`). To keep a part of the sheet is such a relation (`Emit.keeping`).
Rendering an expression never writes: statements inside it go into a buffer of their own.
-/

namespace Polyglot

/-- All of a sheet in which no notes are made. -/
def Sheet.standing (sheet : Sheet) : Writer × Bool × Option Member × Bool × List String := (sheet.writer, sheet.bearing)

namespace Emit

variable {α β : Type} {r r' : Emitter}

instance : Noteless Sheet.standing := ⟨fun writer bearing => by rw [Sheet.standing, Sheet.standing, writer, bearing]⟩

/-! ## Logics -/

/-- **A relation between two emissions** that makes statements about trees from statements about their parts. The index
of a Rust array has a rule of its own, since the flag of a change is turned for it. -/
structure Logic where
  Holds : {α : Type} → Emit α → Emit α → Prop
  quiet : ∀ {α : Type} {x : Emit α}, Keeps Sheet.standing x → Holds x x
  bind : ∀ {α β : Type} {x y : Emit α} {f g : α → Emit β}, Holds x y → (∀ a, Holds (f a) (g a)) →
    Holds (x >>= f) (y >>= g)
  rustIndex : ∀ {r r' : Emitter} {target index : Option Expr} (elem : Option Ty),
    Holds (r.value index) (r'.value index) →
    Holds (r.operand target Prec.postfixed) (r'.operand target Prec.postfixed) →
    Holds (rustIndex r target index elem) (rustIndex r' target index elem)

variable {Q : Logic}

@[grind ←] theorem Keeps.holds {x : Emit α} (quiet : Keeps Sheet.standing x) : Q.Holds x x := Q.quiet quiet

namespace Logic

/-- **The parts of a tree are emitted alike.** -/
structure Parts (Q : Logic) (r r' : Emitter) : Prop where
  bare : ∀ e, Q.Holds (r.bare e) (r'.bare e)
  block : ∀ ss, Q.Holds (captureInline (r.block ss)) (captureInline (r'.block ss))

namespace Holds

theorem pure (a : α) : Q.Holds (Pure.pure a) (Pure.pure a) := (Keeps.pure a).holds

@[grind ←] theorem bind {x y : Emit α} {f g : α → Emit β} (first : Q.Holds x y) (next : ∀ a, Q.Holds (f a) (g a)) :
    Q.Holds (x >>= f) (y >>= g) := Q.bind first next

@[grind ←] theorem mapM {f g : β → Emit α} (each : ∀ b, Q.Holds (f b) (g b)) (l : List β) : Q.Holds (l.mapM f) (l.mapM g) := by
  induction l with
  | nil => exact .pure []
  | cons b l ih =>
    rw [List.mapM_cons, List.mapM_cons]
    exact (each b).bind fun _ => ih.bind fun _ => .pure _

end Holds

end Logic

/-! ## Parts -/

theorem holds_present {render render' : Expr → Emit Rendered} (holds : ∀ e, Q.Holds (render e) (render' e))
    (e : Option Expr) : Q.Holds (Emitter.present render e) (Emitter.present render' e) := by
  cases e with
  | none => exact (keeps_throw _).holds
  | some e => exact (holds e).bind fun x => (keeps_convert e x).holds

section Parts

variable (parts : Q.Parts r r')
include parts

@[grind ←] theorem holds_value (e : Option Expr) : Q.Holds (r.value e) (r'.value e) :=
  holds_present parts.bare e

@[grind ←] theorem holds_operand (e : Option Expr) (least : Prec) :
    Q.Holds (r.operand e least) (r'.operand e least) := (holds_value parts e).bind fun _ => .pure _

@[grind ←] theorem holds_texts (es : List (Option Expr)) : Q.Holds (r.texts es) (r'.texts es) :=
  .mapM (fun e => (holds_value parts e).bind fun _ => .pure _) es

/-! ## Members and calls -/

@[grind ←] theorem holds_receiverOf (e : Option Expr) : Q.Holds (receiverOf r e) (receiverOf r' e) := by
  unfold receiverOf
  split
  · exact .pure _
  · exact .pure _
  · exact .pure _
  · exact (holds_value parts e).bind fun _ => .pure _

@[grind ←] theorem holds_memberLead (e : Option Expr) (s : Symbol) : Q.Holds (memberLead r e s) (memberLead r' e s) := by
  unfold memberLead
  split
  · grind
  · exact (holds_receiverOf parts e).bind fun _ => (keeps_receiverText _ _).holds

variable (isRaw : Bool) (temporary : String) (u : TemplateUse) (e : Expr) (es : List Expr) (t : Option Ty)
  (operand target : Option Expr) (s : Symbol) (args : List (Argument Expr))

@[grind ←] theorem holds_argumentText (e : Option Expr) : Q.Holds (argumentText r isRaw e) (argumentText r' isRaw e) := by
  unfold argumentText
  grind -funext

@[grind ←] theorem holds_argument (b : Bound (Option Expr)) : Q.Holds (argument r isRaw b) (argument r' isRaw b) := by
  unfold argument
  split
  · exact (keeps_literal _ _).holds
  · exact (keeps_literal _ _).holds
  · exact (keeps_defaultValue _).holds
  · refine (keeps_boundValues b).holds.bind fun values => ?_
    split
    · refine (Logic.Holds.mapM (holds_argumentText parts isRaw) _).bind fun _ => ?_
      grind
    · split
      · refine (holds_argumentText parts isRaw _).bind fun _ => ?_
        grind
      · exact (keeps_throw _).holds

@[grind ←] theorem holds_plainArguments (args : List (Argument (Option Expr))) :
    Q.Holds (plainArguments r args) (plainArguments r' args) := holds_texts parts _

@[grind ←] theorem holds_arguments (receiver : Option (Option Expr)) (args : List (Argument (Option Expr))) (place : Position) :
    Q.Holds (arguments r s receiver args place) (arguments r' s receiver args place) :=
  (keeps_bound s receiver args place).holds.bind fun _ => .mapM (holds_argument parts false) _

/-! ## Templates -/

omit parts in
@[grind ←] theorem holds_valuesFor (name : String) {value value' : Variable → Emit String}
    (each : ∀ v, Q.Holds (value v) (value' v)) : Q.Holds (u.valuesFor name value) (u.valuesFor name value') :=
  .mapM (fun v => (each v).bind fun _ => .pure _) _

@[grind ←] theorem holds_parameterValues : Q.Holds (u.parameterValues r) (u.parameterValues r') := by
  unfold TemplateUse.parameterValues
  split
  · exact .pure _
  · refine (keeps_bound _ _ _ _).holds.bind fun _ => .bind (.mapM (fun b => ?_) _) fun _ => .pure _
    exact holds_valuesFor u _ fun v => holds_argument parts _ b

@[grind ←] theorem holds_expand : Q.Holds (u.expand r) (u.expand r') := by
  unfold TemplateUse.expand
  split
  · refine (holds_valuesFor u _ fun _ => .pure _).bind fun _ => ?_
    grind -funext
  · grind -funext

@[grind ←] theorem holds_usedReceiver (template : Template) (receiver : Option Expr) :
    Q.Holds (usedReceiver r template receiver) (usedReceiver r' template receiver) := by
  unfold usedReceiver
  grind -funext

@[grind ←] theorem holds_expandTemplate (template : Template) (e : Expr) (s : Symbol)
    (receiver : Option Expr) (args : List (Argument (Option Expr))) :
    Q.Holds (expandTemplate r template e s receiver args) (expandTemplate r' template e s receiver args) :=
  (holds_usedReceiver parts template receiver).bind fun _ => holds_expand parts _

/-! ## Invocations and names -/

@[grind ←] theorem holds_invocation (callee : Expr) (ts : List Ty) (args : List (Argument Expr)) :
    Q.Holds (invocation r e callee ts args) (invocation r' e callee ts args) := by
  unfold invocation
  split
  · have delegate := (holds_value parts (some callee)).bind fun x =>
      (holds_plainArguments parts (optional args)).bind fun y => (keeps_delegateCall x y).holds
    split
    · exact (keeps_remark e).holds.bind fun _ => delegate
    · exact delegate
  · refine (keeps_template? _).holds.bind fun found => ?_
    split
    · exact holds_expandTemplate parts _ e _ _ _
    · refine (holds_arguments parts _ _ _ _).bind fun _ => (keeps_symbolName _).holds.bind fun _ => ?_
      refine (keeps_genericCall _ ts).holds.bind fun _ => ?_
      split
      · grind
      · exact (holds_memberLead parts _ _).bind fun _ => .pure _

@[grind ←] theorem holds_memberRead : Q.Holds (memberRead r e target s) (memberRead r' e target s) := by
  refine (keeps_template? _).holds.bind fun found => ?_
  split
  · exact holds_expandTemplate parts _ e s target _
  · split
    · grind
    · refine (holds_memberLead parts target s).bind fun lead => ?_
      split
      · exact (keeps_propertyGet lead s).holds
      · exact (keeps_fieldGet lead s).holds
      · exact (keeps_fieldGet lead s).holds
      · exact (keeps_methodGroup lead s).holds
      · exact (keeps_symbolName s).holds.bind fun _ => .pure _

@[grind ←] theorem holds_identifier : Q.Holds (identifier r e) (identifier r' e) := by
  unfold identifier
  split
  · grind
  · split
    · grind
    · grind
    · grind
    · exact holds_memberRead parts e none _

@[grind ←] theorem holds_memberAccess : Q.Holds (memberAccess r e target) (memberAccess r' e target) := by
  unfold memberAccess
  split
  · grind
  · split
    · grind
    · exact holds_memberRead parts e target _

/-! ## Creations -/

@[grind ←] theorem holds_addCall (lead : String) (e : Expr) :
    Q.Holds (addCall r temporary lead e) (addCall r' temporary lead e) := by
  unfold addCall
  split
  · refine (keeps_remark e).holds.bind fun _ => (holds_plainArguments parts _).bind fun _ => ?_
    exact (keeps_fitted _).holds.bind fun _ => .pure _
  · refine (keeps_template? _).holds.bind fun found => ?_
    split
    · exact (holds_expand parts _).bind fun _ => .pure _
    · exact (holds_arguments parts _ _ _ _).bind fun _ => (keeps_symbolName _).holds.bind fun _ => .pure _

@[grind ←] theorem holds_initializerStatement (lead : String) (e : Expr) :
    Q.Holds (initializerStatement r temporary lead e) (initializerStatement r' temporary lead e) := by
  unfold initializerStatement
  split
  · refine (holds_value parts _).bind fun x => ?_
    split <;> grind
  · exact (holds_addCall parts temporary lead e).bind fun _ => .pure _

@[grind ←] theorem holds_initializerStatements :
    Q.Holds (initializerStatements r temporary es) (initializerStatements r' temporary es) :=
  (keeps_receiverText _ false).holds.bind fun lead => .mapM (holds_initializerStatement parts temporary lead) es

@[grind ←] theorem holds_csharpElement : Q.Holds (csharpElement r e) (csharpElement r' e) := by
  unfold csharpElement
  grind -funext

@[grind ←] theorem holds_initialized (t : Ty) (es : List Expr) (x : Rendered) :
    Q.Holds (initialized r e t es x) (initialized r' e t es x) := by
  have filled (tmp : String) := holds_initializerStatements parts tmp es
  refine keeps_target.holds.bind fun target => ?_
  cases target with
  | csharp => exact (Logic.Holds.mapM (holds_csharpElement parts) es).bind fun _ => .pure _
  | java | typescript | cpp | rust => grind -funext

@[grind ←] theorem holds_created (t : Ty) (args : List (Argument Expr)) :
    Q.Holds (created r e t args) (created r' e t args) := by
  unfold created
  split
  · refine (keeps_remark e).holds.bind fun _ => (holds_plainArguments parts _).bind fun _ => ?_
    exact (keeps_newObject _ _ _).holds
  · refine (keeps_template? _).holds.bind fun found => ?_
    split
    · exact holds_expandTemplate parts _ e _ _ _
    · exact (holds_arguments parts _ _ _ _).bind fun _ => (keeps_newObject _ _ _).holds

@[grind ←] theorem holds_creation (t : Ty) (args : List (Argument Expr)) (es : List Expr) :
    Q.Holds (creation r e t args es) (creation r' e t args es) := by
  refine (holds_created parts e t args).bind fun x => ?_
  split
  · exact .pure _
  · exact holds_initialized parts e t es x

@[grind ←] theorem holds_arrayCreation (t : Ty) (sizes elements : List (Option Expr)) :
    Q.Holds (arrayCreation r t sizes elements) (arrayCreation r' t sizes elements) := by
  unfold arrayCreation
  grind -funext

@[grind ←] theorem holds_anonymousMembers : Q.Holds (anonymousMembers r es) (anonymousMembers r' es) := by
  unfold anonymousMembers
  grind -funext

@[grind ←] theorem holds_anonymousObject : Q.Holds (anonymousObject r e es) (anonymousObject r' e es) := by
  unfold anonymousObject
  grind -funext

/-! ## Operators -/

@[grind ←] theorem holds_plainBinary (left right : Option Expr) :
    Q.Holds (plainBinary r e left right) (plainBinary r' e left right) := by
  unfold plainBinary
  grind -funext

@[grind ←] theorem holds_cppTextOperand (e : Option Expr) : Q.Holds (cppTextOperand r e) (cppTextOperand r' e) := by
  unfold cppTextOperand
  grind -funext

@[grind ←] theorem holds_formatPart (e : Option Expr) : Q.Holds (formatPart r e) (formatPart r' e) := by
  unfold formatPart
  grind -funext

@[grind ←] theorem holds_identityTest (op : String) (left right : Option Expr) :
    Q.Holds (identityTest r op left right) (identityTest r' op left right) :=
  (holds_operand parts left _).bind fun _ => (holds_operand parts right _).bind fun _ => .pure _

@[grind ←] theorem holds_binary (left right : Option Expr) : Q.Holds (binary r e left right) (binary r' e left right) := by
  unfold binary
  grind -funext

@[grind ←] theorem holds_plainUnary : Q.Holds (plainUnary r e operand) (plainUnary r' e operand) := by
  unfold plainUnary
  grind -funext

/-- Counting up and down is no change as a value: Rust refuses it, and the others need no flag. -/
theorem holds_unary {isStatement : Bool} {e : Expr} {operand : Option Expr}
    (place : (isStatement && e.userOperator?.isNone && (e.mark.op = "++" || e.mark.op = "--")) = true →
      Q.Holds (mutably (r.value operand)) (mutably (r'.value operand))) :
    Q.Holds (unary r isStatement e operand) (unary r' isStatement e operand) := by
  unfold unary
  grind -funext

@[grind ←] theorem holds_assignProperty (left : Expr) (s : Symbol) (op : String) (x : Rendered)
    (place : Q.Holds (mutably (r.value (some left))) (mutably (r'.value (some left))))
    (lead : Q.Holds (mutably (memberLead r (assignedOn left).1 s)) (mutably (memberLead r' (assignedOn left).1 s))) :
    Q.Holds (assignProperty r e left s op x) (assignProperty r' e left s op x) := by
  refine (keeps_template? _).holds.bind fun found => ?_
  cases found with
  | some template => grind -funext
  | none =>
    dsimp only
    split
    · grind -funext
    · exact lead.bind fun _ => (keeps_propertySet _ s op x).holds

/-- **An assignment** follows from what is shown of its left side as the place of a change. -/
theorem holds_assignment {left right : Option Expr} (place : Q.Holds (mutably (r.value left)) (mutably (r'.value left)))
    (lead : ∀ l s, left = some l → Q.Holds (mutably (memberLead r (assignedOn l).1 s)) (mutably (memberLead r' (assignedOn l).1 s))) :
    Q.Holds (assignment r e left right) (assignment r' e left right) := by
  have plain : Q.Holds (plainAssignment r e left right) (plainAssignment r' e left right) := by
    unfold plainAssignment plainAssignment.assign
    grind -funext
  unfold assignment
  grind -funext

@[grind ←] theorem holds_conditional (cond yes no : Option Expr) :
    Q.Holds (conditional r cond yes no) (conditional r' cond yes no) := by
  unfold conditional
  grind -funext

@[grind ←] theorem holds_parenthesized (inner : Option Expr) :
    Q.Holds (parenthesized r inner) (parenthesized r' inner) := (holds_value parts inner).bind fun _ => .pure _

@[grind ←] theorem holds_plainIndex : Q.Holds (plainIndex r e target args) (plainIndex r' e target args) := by
  unfold plainIndex
  split
  · grind -funext
  · refine (keeps_template? _).holds.bind fun found => ?_
    cases found <;> grind -funext

@[grind ←] theorem holds_rustIndex (index : Option Expr) (elem : Option Ty) :
    Q.Holds (rustIndex r target index elem) (rustIndex r' target index elem) :=
  Q.rustIndex elem (holds_value parts index) (holds_operand parts target _)

@[grind ←] theorem holds_elementAccess : Q.Holds (elementAccess r e target args) (elementAccess r' e target args) := by
  unfold elementAccess
  grind -funext

/-! ## Types in expressions -/

@[grind ←] theorem holds_cast : Q.Holds (cast r e t operand) (cast r' e t operand) := by
  unfold cast
  grind -funext

@[grind ←] theorem holds_typeTest : Q.Holds (typeTest r e t operand) (typeTest r' e t operand) := by
  unfold typeTest
  grind -funext

@[grind ←] theorem holds_safeCast : Q.Holds (safeCast r e t operand) (safeCast r' e t operand) := by
  unfold safeCast
  grind -funext

@[grind ←] theorem holds_typed (kind : TypedKind) (t : Option Ty) (operand : Option Expr) :
    Q.Holds (typed r e kind t operand) (typed r' e kind t operand) := by
  unfold typed
  grind -funext

/-! ## Lambdas -/

@[grind ←] theorem holds_lambdaBody (body : Option LambdaBody) : Q.Holds (lambdaBody r body) (lambdaBody r' body) := by
  unfold lambdaBody
  split
  · exact .pure _
  · grind -funext
  · split
    · exact (parts.block _).bind fun _ => .pure _
    · exact (keeps_throw _).holds

@[grind ←] theorem holds_lambda (ps : List LambdaParameter) (body : Option LambdaBody) :
    Q.Holds (lambda r ps body) (lambda r' ps body) := by
  unfold lambda
  grind -funext

/-! ## All expressions -/

/-- **Whatever is shown of the parts of an expression is shown of the expression**, but for a change, which asks for
more. -/
theorem holds_expression (isStatement : Bool) (e : Expr) (counted : ∀ operand, e.form = .unary operand →
      Q.Holds (unary r isStatement e operand) (unary r' isStatement e operand))
    (assigned : ∀ left right, e.form = .assign left right → Q.Holds (assignment r e left right) (assignment r' e left right)) :
    Q.Holds (expression r isStatement e) (expression r' isStatement e) := by
  unfold expression
  split
  case h_9 left right form => exact assigned left right form
  case h_8 operand form => exact counted operand form
  all_goals grind

/-! ## Keeping -/

/-- **To keep a part of the sheet is a logic**, of one emission. -/
def keeping {σ : Type} (part : Sheet → σ) [Flagless part] : Logic where
  Holds x _ := Keeps part x
  quiet quiet scene sheet := Noteless.same (congrArg Prod.fst (quiet scene sheet)) (congrArg Prod.snd (quiet scene sheet))
  bind := Keeps.bind
  rustIndex elem index target := by
    have set (b : Bool) : Keeps part (modify fun sheet => { sheet with mutating := b }) := .modify fun _ => Flagless.free _ _
    refine keeps_get.bind fun _ => (set _).bind fun _ => index.bind fun _ => ?_
    refine (set _).bind fun _ => target.bind fun _ => ?_
    cases elem with
    | none => exact .pure _
    | some t => exact .pure _

end Parts

end Emit

end Polyglot
