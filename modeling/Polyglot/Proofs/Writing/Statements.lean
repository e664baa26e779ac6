import Polyglot.Proofs.Writing.Expressions

/-!
# Statements come back to their level

A statement adds text to the current buffer, opens as many blocks as it closes, and ends its line. There is one lemma for each
function that writes a construct, for all the relations between two ways to emit that know of levels (`Emit.LevelLogic`): to
come back to a level (`Emit.writing`), or to the member and the handlers (`Emit.returning`). The parts of a tree are emitted
within fewer levels, so one induction on the levels shows it of all trees.
-/

namespace Polyglot

namespace Emit

/-! ## Statements from their parts -/

/-- **A logic of statements as well**: what they write leads from one level to another. A step of the writer is in it,
and a capture makes a statement part of an expression. -/
structure LevelLogic extends Logic where
  Runs : Nat → Nat → {α : Type} → Emit α → Emit α → Prop
  runs : ∀ {n : Nat} {α : Type} {x y : Emit α}, Holds x y → Runs n n x y
  written : ∀ {n m : Nat} {α : Type} {x : Emit α}, Writes n m x → Steady x → Runs n m x x
  andThen : ∀ {n m k : Nat} {α β : Type} {x y : Emit α} {f g : α → Emit β}, Runs n m x y →
    (∀ a, Runs m k (f a) (g a)) → Runs n k (x >>= f) (y >>= g)
  inHandler : ∀ {n m : Nat} {α : Type} {x y : Emit α} (name : String), Runs n m x y →
    Runs n m (inHandler name x) (inHandler name y)
  capture : ∀ {x y : Emit Unit}, (∀ n, Runs n n x y) → Holds (capture x) (capture y)

variable {α β : Type} {Q : LevelLogic} {r r' : Emitter} {n m k : Nat} {x : Emit α}

theorem Logic.Holds.runs {y : Emit α} (holds : Q.Holds x y) : Q.Runs n n x y := Q.runs holds

theorem Keeps.runs (quiet : Keeps Sheet.standing x) : Q.Runs n n x x := quiet.holds.runs

namespace LevelLogic

/-- **The parts of a tree are emitted alike.** -/
structure Trees (Q : LevelLogic) (r r' : Emitter) : Prop where
  bare : ∀ e, Q.Holds (r.bare e) (r'.bare e)
  action : ∀ e, Q.Holds (r.action e) (r'.action e)
  stmt : ∀ s n, Q.Runs n n (r.stmt s) (r'.stmt s)

namespace Runs

theorem pure (a : α) : Q.Runs n n (Pure.pure a) (Pure.pure a) := (Keeps.pure a).runs

theorem bind {x y : Emit α} {f g : α → Emit β} (first : Q.Runs n m x y) (next : ∀ a, Q.Runs m k (f a) (g a)) :
    Q.Runs n k (x >>= f) (y >>= g) := Q.andThen first next

theorem forM {f g : β → Emit Unit} {l : List β} (each : ∀ b, Q.Runs n n (f b) (g b)) :
    Q.Runs n n (l.forM f) (l.forM g) := by
  induction l with
  | nil => exact .pure ()
  | cons b l ih => exact (each b).bind fun _ => ih

theorem captureInline {x y : Emit Unit} (runs : ∀ n, Q.Runs n n x y) : Q.Holds (captureInline x) (captureInline y) :=
  (Q.capture runs).bind fun _ => .pure _

end Runs

end LevelLogic

theorem runs_write (s : String) : Q.Runs n n (write s) (write s) := Q.written (writes_write s) (steady_write s)

theorem runs_line (s : String) : Q.Runs n n (line s) (line s) := Q.written (writes_line s) (steady_line s)

theorem runs_endLine : Q.Runs n n endLine endLine := Q.written writes_endLine steady_endLine

theorem runs_openBlock (head : String) : Q.Runs n (n + 1) (openBlock head) (openBlock head) :=
  Q.written (writes_openBlock head) (steady_openBlock head)

theorem runs_closeBlock : Q.Runs (n + 1) n closeBlock closeBlock := Q.written writes_closeBlock steady_closeBlock

theorem runs_continueBlock (head : String) : Q.Runs n (n + 1) (continueBlock head) (continueBlock head) :=
  Q.written (writes_continueBlock head) (steady_continueBlock head)

section Trees

variable (parts : Q.Trees r r')
include parts

variable (ss : List Stmt) (caught : String) (h : Handler Stmt) (isFirst : Bool) (head : String) (hs : List (Handler Stmt))
  (e : Option Expr) (s : Stmt) (body : Option Stmt) (type : Option Ty) (value : Option Expr) (init : List Stmt)
  (cond : Option Expr) {opening : Emit Unit}

theorem runs_stmts : Q.Runs n n (r.stmts ss) (r'.stmts ss) :=
  .forM fun s => parts.stmt s n

/-- A block goes one level up and comes back. -/
theorem runs_block : Q.Runs n n (r.block ss) (r'.block ss) :=
  (runs_openBlock "").bind fun _ => (runs_stmts parts ss).bind fun _ => runs_closeBlock

theorem LevelLogic.Trees.logic : Q.Parts r r' where
  bare := parts.bare
  block ss := LevelLogic.Runs.captureInline fun _ => runs_block parts ss

/-! ## Values -/

theorem runs_exprStatement : Q.Runs n n (exprStatement r value) (exprStatement r' value) :=
  (holds_present parts.action value).runs.bind fun _ => runs_write _

theorem runs_localDeclaration : Q.Runs n n (localDeclaration r s type value) (localDeclaration r' s type value) := by
  refine (keeps_declaredLocal s type).runs.bind fun _ => (keeps_localHead _ _).runs.bind fun _ => ?_
  cases value with
  | none => exact runs_write _
  | some e => exact (holds_value parts.logic _).runs.bind fun _ => runs_write _

theorem runs_wordWith (word alone : String) (value : Option Expr) :
    Q.Runs n n (wordWith r word alone value) (wordWith r' word alone value) := by
  cases value with
  | none => exact runs_write alone
  | some e => exact (holds_value parts.logic _).runs.bind fun _ => runs_write _

/-! ## Choices and loops -/

theorem runs_body (s : Option Stmt) : Q.Runs n n (r.body s) (r'.body s) := by
  cases s with
  | none => exact .pure ()
  | some s =>
    unfold Emitter.body
    dsimp only
    split
    · exact runs_stmts parts _
    · exact parts.stmt s n

theorem holds_condition : Q.Holds (condition r e) (condition r' e) :=
  (holds_value parts.logic e).bind fun _ => keeps_dialect.holds.bind fun _ => .pure _

/-- A clause with a body that others follow. -/
theorem runs_clause {rest rest' : Emit Unit}
    (opens : Q.Runs n (n + 1) opening opening) (body : Option Stmt) (next : Q.Runs n n rest rest') :
    Q.Runs n n (do
      opening
      r.body body
      closeBlock
      rest) (do
      opening
      r'.body body
      closeBlock
      rest') :=
  opens.bind fun _ => (runs_body parts body).bind fun _ => runs_closeBlock.bind fun _ => next

/-- A clause with a body that none follows. -/
theorem runs_lastBlock (opens : Q.Runs n (n + 1) opening opening)
    (body : Option Stmt) :
    Q.Runs n n (do
      opening
      r.body body
      closeBlock) (do
      opening
      r'.body body
      closeBlock) :=
  opens.bind fun _ => (runs_body parts body).bind fun _ => runs_closeBlock

theorem runs_loop : Q.Runs n n (loop r head body) (loop r' head body) :=
  runs_lastBlock parts (runs_openBlock head) body

omit parts

mutual

/-- Each further clause of a choice opens a block and closes it. -/
theorem runs_elseClause (parts : Q.Trees r r') :
    (s : Option Stmt) → Q.Runs n n (elseClause r s) (elseClause r' s)
  | none => by
    rw [elseClause]
    exact .pure ()
  | some s => by
    rw [elseClause]
    exact runs_elseStmt parts s

theorem runs_elseStmt (parts : Q.Trees r r') :
    (s : Stmt) → Q.Runs n n (elseStmt r s) (elseStmt r' s)
  | .node mark form => by
    rw [elseStmt]
    exact runs_elseForm parts mark form

theorem runs_elseForm (parts : Q.Trees r r') (mark : Mark) :
    (form : StmtForm) → Q.Runs n n (elseForm r mark form) (elseForm r' mark form)
  | .ifElse cond yes no => by
    rw [elseForm]
    refine (holds_condition parts cond).runs.bind fun _ => ?_
    exact runs_clause parts (runs_continueBlock _) yes (runs_elseClause parts no)
  | .block _ | .expr _ | .declaration _ _ | .returns _ | .whileLoop _ _ | .forLoop _ _ _ _ | .foreach _ _ _
  | .breakLoop | .continueLoop | .throws _ | .tryCatch _ _ _ | .yields _ => by
    rw [elseForm, elseForm]
    · exact runs_lastBlock parts (runs_continueBlock _) _
    all_goals rintro _ _ _ ⟨⟩

end

include parts

theorem runs_ifElse (yes no : Option Stmt) : Q.Runs n n (ifElse r cond yes no) (ifElse r' cond yes no) :=
  (holds_condition parts cond).runs.bind fun _ =>
    runs_clause parts (runs_openBlock _) yes (runs_elseClause parts no)

/-- A statement in the head of a loop is captured, unless it is an expression. -/
@[grind ←] theorem holds_inlineStatement : Q.Holds (inlineStatement r s) (inlineStatement r' s) := by
  unfold inlineStatement
  split
  · exact keeps_crash.holds
  · exact (holds_value parts.logic _).bind fun _ => .pure _
  · exact (LevelLogic.Runs.captureInline (parts.stmt s)).bind fun _ => .pure _

@[grind ←] theorem holds_inlineExpression : Q.Holds (inlineExpression r e) (inlineExpression r' e) := by
  cases e with
  | none => exact keeps_crash.holds
  | some e => exact (holds_value parts.logic _).bind fun _ => .pure _

variable (post : List (Option Expr))

theorem runs_plainFor (body : Option Stmt) :
    Q.Runs n n (plainFor r init cond post body) (plainFor r' init cond post body) := by
  refine (Logic.Holds.mapM (holds_inlineStatement parts) init).runs.bind fun _ => ?_
  cases cond
  case' some => refine (holds_value parts.logic _).runs.bind fun _ => ?_
  all_goals
    exact (Logic.Holds.mapM (holds_inlineExpression parts) post).runs.bind fun _ => runs_loop parts _ body

theorem runs_stepStatement : Q.Runs n n (stepStatement r e) (stepStatement r' e) := by
  cases e with
  | none => exact keeps_crash.runs
  | some e => exact (runs_exprStatement parts _).bind fun _ => runs_endLine

/-- The loop of Rust stands in a block of its own: two blocks are opened, and both are closed. -/
theorem runs_rustFor (body : Option Stmt) :
    Q.Runs n n (rustFor r s init cond post body) (rustFor r' s init cond post body) := by
  unfold rustFor
  split
  · exact (keeps_unsupported _ _).runs
  · refine (runs_openBlock _).bind fun _ => (runs_stmts parts init).bind fun _ => ?_
    cases cond
    case' none => refine (LevelLogic.Runs.pure _).bind fun _ => ?_
    case' some => refine (holds_condition parts _).runs.bind fun _ => ?_
    all_goals
      refine (runs_openBlock _).bind fun _ => (runs_body parts body).bind fun _ => ?_
      refine (LevelLogic.Runs.forM fun e => runs_stepStatement parts e).bind fun _ => ?_
      exact runs_closeBlock.bind fun _ => runs_endLine.bind fun _ => runs_closeBlock

theorem runs_forLoop (body : Option Stmt) :
    Q.Runs n n (forLoop r s init cond post body) (forLoop r' s init cond post body) := by
  refine keeps_target.runs.bind fun _ => ?_
  split
  · exact runs_rustFor parts s init cond post body
  · exact runs_plainFor parts init cond post body

theorem runs_foreachLoop (collection : Option Expr) (body : Option Stmt) :
    Q.Runs n n (foreachLoop r s type collection body) (foreachLoop r' s type collection body) := by
  refine (keeps_declaredLocal s type).runs.bind fun declared => ?_
  refine (holds_operand parts.logic collection _).runs.bind fun _ => keeps_target.runs.bind fun _ => ?_
  split
  · exact runs_loop parts _ body
  · split
    · exact (keeps_foreachHead _ _ _).runs.bind fun _ => runs_loop parts _ body
    · refine (keeps_declaredTypeName _ _).runs.bind fun _ => ?_
      exact (keeps_foreachHead _ _ _).runs.bind fun _ => runs_loop parts _ body

/-! ## Exceptions -/

omit parts in
theorem runs_rethrow : Q.Runs n n (rethrow s) (rethrow s) := by
  refine keeps_dialect.runs.bind fun _ => keeps_get.runs.bind fun _ => ?_
  split
  · exact runs_write _
  · exact runs_write _
  · exact (keeps_unsupported _ _).runs

theorem runs_throws : Q.Runs n n (throws r s value) (throws r' s value) := by
  refine keeps_target.runs.bind fun _ => ?_
  split
  · exact (keeps_unsupported _ _).runs
  · exact runs_rethrow s
  all_goals exact (holds_value parts.logic _).runs.bind fun _ => runs_write _

theorem runs_handlerBody (name : String) (h : Handler Stmt) :
    Q.Runs n n (handlerBody r name h) (handlerBody r' name h) := Q.inHandler name (runs_body parts h.body)

theorem runs_handlerClause (name : String) (h : Handler Stmt) :
    Q.Runs n n (do
      continueBlock head
      handlerBody r name h
      closeBlock) (do
      continueBlock head
      handlerBody r' name h
      closeBlock) :=
  (runs_continueBlock head).bind fun _ => (runs_handlerBody parts name h).bind fun _ => runs_closeBlock

theorem runs_csharpHandler : Q.Runs n n (csharpHandler r h) (csharpHandler r' h) := by
  unfold csharpHandler
  split
  · exact runs_handlerClause parts _ h.name h
  · exact (keeps_typeName _ _).runs.bind fun _ => runs_handlerClause parts _ h.name h

theorem runs_javaHandler : Q.Runs n n (javaHandler r h) (javaHandler r' h) :=
  (keeps_handlerName h).runs.bind fun name =>
    (keeps_typeName _ _).runs.bind fun _ => runs_handlerClause parts _ name h

omit parts in
theorem runs_chainClause : Q.Runs n (n + 1) (chainClause isFirst head) (chainClause isFirst head) := by
  unfold chainClause
  split
  · exact runs_openBlock head
  · exact runs_continueBlock _

omit parts in
theorem runs_lastClause {x y : Emit Unit} (runs : ∀ n, Q.Runs n n x y) :
    Q.Runs n n (lastClause isFirst x) (lastClause isFirst y) := by
  unfold lastClause
  split
  · exact runs n
  · refine (runs_continueBlock _).bind fun _ => (runs (n + 1)).bind fun _ => ?_
    exact runs_closeBlock.bind fun _ => runs_endLine

/-- Each test of what was caught opens a block and closes it before the next one. -/
theorem runs_cppHandlers : Q.Runs n n (cppHandlers r caught isFirst hs) (cppHandlers r' caught isFirst hs) := by
  induction hs generalizing isFirst with
  | nil => exact runs_lastClause false fun _ => runs_line _
  | cons h hs ih =>
    unfold cppHandlers
    split
    · exact runs_lastClause isFirst fun _ => runs_handlerBody parts caught h
    · refine (keeps_noteFull _).runs.bind fun _ => (keeps_handlerName h).runs.bind fun name => ?_
      refine (keeps_nameOf _ _).runs.bind fun _ => (runs_chainClause isFirst _).bind fun _ => ?_
      refine (runs_handlerBody parts name h).bind fun _ => ?_
      exact runs_closeBlock.bind fun _ => ih false

theorem runs_typescriptBody : Q.Runs n n (typescriptBody r caught h) (typescriptBody r' caught h) := by
  unfold typescriptBody
  split
  · exact runs_handlerBody parts caught h
  · refine (keeps_fitted _).runs.bind fun name => ?_
    split
    · exact (runs_line _).bind fun _ => runs_handlerBody parts name h
    · exact runs_handlerBody parts name h

theorem runs_typescriptHandlers :
    Q.Runs n n (typescriptHandlers r caught isFirst hs) (typescriptHandlers r' caught isFirst hs) := by
  induction hs generalizing isFirst with
  | nil =>
    cases isFirst with
    | true => exact .pure ()
    | false => exact runs_lastClause false fun _ => runs_line _
  | cons h hs ih =>
    rw [typescriptHandlers, typescriptHandlers]
    split
    · exact runs_lastClause isFirst fun _ => runs_typescriptBody parts caught h
    · refine (keeps_typeReference _).runs.bind fun _ => (runs_chainClause isFirst _).bind fun _ => ?_
      refine (runs_typescriptBody parts caught h).bind fun _ => ?_
      exact runs_closeBlock.bind fun _ => ih false

theorem runs_typescriptHandler : Q.Runs n n (typescriptHandler r hs) (typescriptHandler r' hs) := by
  unfold typescriptHandler
  split
  · exact .pure ()
  · refine (keeps_temporary _).runs.bind fun minted => ?_
    split <;> try split
    case' isFalse => refine (keeps_fitted _).runs.bind fun _ => ?_
    all_goals
      refine (runs_continueBlock _).bind fun _ => ?_
      exact (runs_typescriptHandlers parts _ true _).bind fun _ => runs_closeBlock

theorem runs_finalClause (finalizer : Option Stmt) :
    Q.Runs n n (finalClause r finalizer) (finalClause r' finalizer) := by
  cases finalizer with
  | none => exact .pure ()
  | some s => exact runs_lastBlock parts (runs_continueBlock _) _

theorem runs_tryCatch (hs : List (Handler Stmt)) (finalizer : Option Stmt) :
    Q.Runs n n (tryCatch r s body hs finalizer) (tryCatch r' s body hs finalizer) := by
  have final := runs_finalClause (n := n) parts finalizer
  refine keeps_target.runs.bind fun t => ?_
  split
  · exact (keeps_unsupported _ _).runs
  · split
    · exact (keeps_unsupported _ _).runs
    · refine (runs_loop parts "try" body).bind fun _ => ?_
      split
      · refine (keeps_temporary _).runs.bind fun caught => (runs_continueBlock _).bind fun _ => ?_
        refine (runs_cppHandlers parts caught true hs).bind fun _ => ?_
        exact runs_closeBlock.bind fun _ => final
      · exact (runs_typescriptHandler parts hs).bind fun _ => final
      · exact (LevelLogic.Runs.forM fun h => runs_csharpHandler parts h).bind fun _ => final
      · exact (LevelLogic.Runs.forM fun h => runs_javaHandler parts h).bind fun _ => final

/-! ## All statements -/

theorem runs_openStatement : Q.Runs n n (openStatement r s) (openStatement r' s) := by
  unfold openStatement
  split
  · exact runs_block parts _
  · exact runs_exprStatement parts _
  · exact runs_localDeclaration parts s _ _
  · exact runs_wordWith parts _ _ _
  · exact runs_ifElse parts _ _ _
  · exact (holds_condition parts _).runs.bind fun _ => runs_loop parts _ _
  · exact runs_forLoop parts s _ _ _ _
  · exact runs_foreachLoop parts s _ _ _
  · exact runs_write _
  · exact runs_write _
  · exact runs_throws parts s _
  · exact runs_tryCatch parts s _ _ _
  · refine keeps_target.runs.bind fun _ => ?_
    split
    · exact runs_wordWith parts _ _ _
    · exact (keeps_unsupported _ _).runs

/-- **Whatever is shown of the parts of a statement is shown of the statement.** -/
theorem runs_statement : Q.Runs n n (statement r s) (statement r' s) :=
  (runs_openStatement parts s).bind fun _ => runs_endLine

end Trees

/-! ## Levels -/

/-- **Coming back to a level is such a logic**, of one emission. -/
def writing : LevelLogic where
  toLogic := keeping Sheet.writer
  Runs n m _ x _ := Writes n m x
  runs := Keeps.writes
  written writes _ := writes
  andThen := Writes.bind
  inHandler name writes := writes.inHandler name
  capture := silent_capture

/-- **Coming back to what is around is such a logic.** It knows no levels. -/
def returning : LevelLogic where
  toLogic := keeping Sheet.around
  Runs _ _ _ x _ := Keeps Sheet.around x
  runs := id
  written _ steady scene sheet := congrArg Prod.snd (steady scene sheet)
  andThen := Keeps.bind
  inHandler name keeps := keeps.inHandler name
  capture keeps scene sheet := keeps 0 scene { sheet with writer := sheet.writer.push }

end Emit

/-- **The parts of a tree are emitted well**: expressions are silent, statements come back to their level, and all of them to the
member and the handlers around them. -/
structure Emitter.Disciplined (r : Emitter) : Prop where
  bare : ∀ e, Emit.Silent (r.bare e)
  action : ∀ e, Emit.Silent (r.action e)
  stmt : ∀ s n, Emit.Writes n n (r.stmt s)
  around : Emit.returning.Trees r r

namespace Emit

variable {Q : LevelLogic} {r r' : Emitter} {n : Nat}

/-- **An expression follows from its parts** in a logic that does not see the flag of a change. -/
theorem LevelLogic.Trees.expression (parts : Q.Trees r r')
    (changes : ∀ {α : Type} {x y : Emit α}, Q.Holds x y → Q.Holds (mutably x) (mutably y)) (isStatement : Bool) (e : Expr) :
    Q.Holds (expression r isStatement e) (expression r' isStatement e) := by
  refine holds_expression parts.logic isStatement e (fun operand _ => ?_) fun left right _ => ?_
  · exact holds_unary parts.logic fun _ => changes (holds_value parts.logic operand)
  · exact holds_assignment parts.logic e (changes (holds_value parts.logic left)) fun l s _ =>
      changes (holds_memberLead parts.logic (assignedOn l).1 s)

section Disciplined

variable (parts : r.Disciplined)
include parts

theorem trees : writing.Trees r r := ⟨parts.bare, parts.action, parts.stmt⟩

theorem writes_body (s : Option Stmt) : Writes n n (r.body s) := runs_body (trees parts) s

@[grind ←] theorem silent_value (e : Option Expr) : Silent (r.value e) :=
  holds_value (trees parts).logic e

@[grind ←] theorem silent_plainArguments (args : List (Argument (Option Expr))) :
    Silent (plainArguments r args) := holds_plainArguments (trees parts).logic args

@[grind ←] theorem silent_arguments (s : Symbol) (receiver : Option (Option Expr))
    (args : List (Argument (Option Expr))) (place : Position) : Silent (arguments r s receiver args place) :=
  holds_arguments (trees parts).logic s receiver args place

end Disciplined

theorem atLineStart_statement {s : Stmt} {scene : Scene} {sheet sheet' : Sheet}
    (succeeds : statement r s scene sheet = (.ok (), sheet')) : sheet'.writer.top.atLineStart = true := by
  rw [statement, bind_apply] at succeeds
  split at succeeds
  · cases succeeds
    exact Buffer.atLineStart_endLine
  · cases succeeds

end Emit

/-! ## All trees -/

namespace Emitter

/-- **Trees of any depth are emitted well.** -/
theorem within_disciplined (levels : Nat) : (within levels).Disciplined := by
  induction levels with
  | zero =>
    refine ⟨fun _ => Emit.keeps_crash, fun _ => Emit.keeps_crash, fun _ _ => Emit.keeps_crash.writes, ?_⟩
    exact ⟨fun _ => Emit.keeps_crash, fun _ => Emit.keeps_crash, fun _ _ => Emit.keeps_crash⟩
  | succ levels parts =>
    have silent := (Emit.trees parts).expression Emit.Keeps.mutably
    have returns := parts.around.expression Emit.Keeps.mutably
    refine ⟨silent false, silent true, fun s _ => Emit.runs_statement (Emit.trees parts) s, ?_⟩
    exact ⟨returns false, returns true, fun s _ => Emit.runs_statement parts.around s⟩

/-- **Emission keeps the writer in order**, for every target and within any number of levels. A statement that succeeds
leaves the buffers below, the depth and the level as they were, adds text to the buffer and ends its line. A statement that
succeeds or fails leaves the handlers and the member as they were. An expression leaves the writer exactly as it was, also when
it ends in a fault. -/
theorem within_keeps_writer (levels : Nat) (scene : Scene) (sheet : Sheet) :
    (∀ s sheet', (within levels).stmt s scene sheet = (.ok (), sheet') →
      sheet'.writer.depth = sheet.writer.depth ∧ sheet'.writer.below = sheet.writer.below ∧
      sheet'.writer.level = sheet.writer.level ∧
      (∃ added, sheet'.writer.top.text = sheet.writer.top.text ++ added) ∧
      sheet'.writer.top.atLineStart = true) ∧
    (∀ s outcome sheet', (within levels).stmt s scene sheet = (outcome, sheet') →
      sheet'.handlers = sheet.handlers ∧ sheet'.member = sheet.member ∧ sheet'.inConstructor = sheet.inConstructor) ∧
    (∀ e, ((within levels).bare e scene sheet).2.writer = sheet.writer ∧
      ((within levels).action e scene sheet).2.writer = sheet.writer) ∧
    ∀ e, ((within levels).value e scene sheet).2.writer = sheet.writer := by
  have parts := within_disciplined levels
  refine ⟨fun s sheet' succeeds => ?_, fun s outcome sheet' run => ?_,
    fun e => ⟨parts.bare e scene sheet, parts.action e scene sheet⟩, fun e => Emit.silent_value parts e scene sheet⟩
  · obtain ⟨written, level⟩ := parts.stmt s _ scene sheet rfl
    rw [succeeds] at written level
    refine ⟨?_, written.below, level () rfl, written.text, ?_⟩
    · rw [Writer.depth, Writer.depth, written.below]
    · cases levels with
      | zero => cases succeeds
      | succ levels => exact Emit.atLineStart_statement succeeds
  · have around := parts.around.stmt s 0 scene sheet
    rw [run] at around
    obtain ⟨member, rest⟩ := Prod.mk.inj around
    obtain ⟨inConstructor, handlers⟩ := Prod.mk.inj rest
    exact ⟨handlers, member, inConstructor⟩

/-- A statement without a place. -/
def bareStmt (form : StmtForm) : Stmt := .node { place := {} } form

/-- A loop inside a try statement with two handlers, the first of which throws again. -/
def guardedLoop : Stmt :=
  let forever := Expr.node { place := {} } (.literal ⟨.bool, "true"⟩)
  let loop := bareStmt (.whileLoop (some forever) (some (bareStmt (.block [bareStmt .breakLoop]))))
  bareStmt (.tryCatch (some loop)
    [⟨some Emit.exceptionType, "e", some (bareStmt (.throws none))⟩, ⟨none, "", none⟩] none)

/-- A file of C++ with nothing declared. -/
def emptyScene : Scene where
  target := .cpp
  world := {}
  templates := {}
  decl := default
  artifact := default

/-- Inside a handler, where a text is captured. -/
def capturingSheet : Sheet where
  writer := { unit := "  ", top := { text := "  int x;\n", level := 1 }
              below := [{ text := "run(", level := 2, atLineStart := false }] }
  imports := {}
  handlers := ["outer"]

theorem guardedLoop_keeps_writer :
    ∃ sheet', (within 4).stmt guardedLoop emptyScene capturingSheet = (.ok (), sheet') ∧
      sheet'.writer.depth = 2 ∧ sheet'.writer.level = 1 ∧ sheet'.writer.below = capturingSheet.writer.below ∧
      sheet'.writer.top.atLineStart = true ∧ sheet'.handlers = ["outer"] := by
  have outcome : ((within 4).stmt guardedLoop emptyScene capturingSheet).1 = .ok () := by rfl
  cases succeeds : (within 4).stmt guardedLoop emptyScene capturingSheet with
  | mk result sheet' =>
    rw [succeeds] at outcome
    obtain rfl : result = .ok () := outcome
    obtain ⟨written, around, -⟩ := within_keeps_writer 4 emptyScene capturingSheet
    obtain ⟨depth, below, level, -, lineStart⟩ := written guardedLoop sheet' succeeds
    exact ⟨sheet', rfl, depth, level, below, lineStart, (around guardedLoop _ sheet' succeeds).1⟩

end Emitter

end Polyglot
