import Polyglot.Emit.Knot
import Polyglot.Proofs.Conversions
import Polyglot.Proofs.Operators.Written

/-!
# Parenthesization is faithful

Operator expressions are emitted with parentheses only where an operand binds too loosely. Nothing is lost by that: the text of
every tree of operators reads back, with the target's own levels, as the tree itself. `OperatorTree t e r` says which trees
these are, and what they are without their parentheses.
-/

namespace Polyglot.Operators

open List Emit

/-! ## Trees of operators -/

/-- Nothing is special about a node: it means no operator method, property or event, it is neither a text nor a
shared object, and it is not converted where it stands. -/
structure Plain (m : Mark) : Prop where
  symbol : ∀ s ∈ m.symbol, s.kind ∉ [.operator, .property, .event]
  text : isText m.static = false
  shared : isShared m.static = false
  cast : CastKind.decide m.static m.converted = .none

/-- The reading of a binary operator: TypeScript truncates the quotient of integers. -/
def binaryReading (t : Target) (op : String) (left right : Option Ty) (a b : Reading) : Reading :=
  let x := .infixed (t.operator op) a b
  if t = .typescript && op = "/" && isIntegral left && isIntegral right then .call "Math.trunc" x else x

/-- **A tree of operators** and its reading, which has no parentheses. The leaves are locals of primitive types
and unsigned integers. -/
inductive OperatorTree (t : Target) : Expr → Reading → Prop where
  | name {m : Mark} {s : Symbol} (plain : Plain m) (symbol : m.symbol = some s)
      (kind : s.kind = .local ∨ s.kind = .parameter) (word : Text.IsName s.name.toList) (rename : s.rename = "")
      (type : s.type.any (·.isPrimitive) = true) :
      OperatorTree t (.node m .identifier) (.name (t.fitted s.name))
  | number {m : Mark} {text : String} (plain : Plain m) (word : Text.IsWord text.toList)
      (digit : text.toList.head?.any Char.isDigit = true) :
      OperatorTree t (.node m (.literal ⟨.int, text⟩)) (.number (t.literal ⟨.int, text⟩ m.static))
  | paren {m : Mark} {e : Expr} {a : Reading} (plain : Plain m) (inner : OperatorTree t e a) :
      OperatorTree t (.node m (.paren (some e))) a
  | binary {m : Mark} {l r : Expr} {a b : Reading} (plain : Plain m) (known : m.op ∈ t.levels.map (·.1))
      (coalesce : m.op ≠ "??") (left : OperatorTree t l a) (right : OperatorTree t r b) :
      OperatorTree t (.node m (.binary (some l) (some r))) (binaryReading t m.op l.static r.static a b)
  | unary {m : Mark} {e : Expr} {a : Reading} (plain : Plain m) (known : m.op ∈ prefixes t)
      (before : m.isPostfix = false) (operand : OperatorTree t e a) :
      OperatorTree t (.node m (.unary (some e))) (.prefixed m.op a)
  | counter {m : Mark} {e : Expr} {a : Reading} (plain : Plain m) (known : m.op ∈ counters t)
      (behind : m.isPostfix = true) (operand : OperatorTree t e a) :
      OperatorTree t (.node m (.unary (some e))) (.postfixed m.op a)
  | assignment {m : Mark} {l r : Expr} {a b : Reading} (plain : Plain m) (ht : t ≠ .rust)
      (known : assignmentOperator (.node m (.assign (some l) (some r))) ∈ assignments)
      (left : OperatorTree t l a) (right : OperatorTree t r b) :
      OperatorTree t (.node m (.assign (some l) (some r)))
        (.infixed (assignmentOperator (.node m (.assign (some l) (some r)))) a b)
  | conditional {m : Mark} {c y n : Expr} {a b d : Reading} (plain : Plain m) (ht : t ≠ .rust)
      (cond : OperatorTree t c a) (yes : OperatorTree t y b) (no : OperatorTree t n d) :
      OperatorTree t (.node m (.conditional (some c) (some y) (some n))) (.choice a b d)

theorem OperatorTree.plain {t : Target} {e : Expr} {a : Reading} (h : OperatorTree t e a) : Plain e.mark := by
  cases h with
  | name plain | number plain | paren plain | binary plain | unary plain | counter plain
  | assignment plain | conditional plain => exact plain

/-! ## Emission that succeeds -/

/-- **The emission succeeds with a result**, whatever is on the sheet. -/
def Emits {α : Type} (x : Emit α) (scene : Scene) (a : α) : Prop :=
  ∀ sheet, ∃ sheet', x scene sheet = (.ok a, sheet')

namespace Emits

variable {α β : Type} {scene : Scene}

theorem pure (a : α) : Emits (Pure.pure a) scene a :=
  fun sheet => ⟨sheet, rfl⟩

variable {a : α} {x : Emit α}

theorem bind {f : α → Emit β} {b : β} (hx : Emits x scene a) (hf : Emits (f a) scene b) : Emits (x >>= f) scene b := by
  intro sheet
  obtain ⟨sheet', first⟩ := hx sheet
  obtain ⟨sheet'', second⟩ := hf sheet'
  refine ⟨sheet'', ?_⟩
  change (ExceptT.bindCont (fun a => f a scene) (x scene sheet).1) (x scene sheet).2 = _
  rw [first]
  exact second

theorem target : Emits Emit.target scene scene.target :=
  fun sheet => ⟨sheet, rfl⟩

theorem dialect : Emits Emit.dialect scene scene.target.dialect :=
  fun sheet => ⟨sheet, rfl⟩

/-- Something that does not depend on the sheet that it reads. -/
theorem get_bind {f : Sheet → Emit α} (h : ∀ sheet, Emits (f sheet) scene a) : Emits (get >>= f) scene a :=
  fun sheet => h sheet sheet

theorem mutably (hx : Emits x scene a) : Emits (Emit.mutably x) scene a := by
  intro sheet
  obtain ⟨sheet', first⟩ := hx { sheet with mutating := true }
  refine ⟨{ sheet' with mutating := false }, ?_⟩
  simp only [Emit.mutably, first]

end Emits

/-! ## One operator at a time -/

section Nodes

variable {scene : Scene} {r : Emitter} {e : Expr} {x y z : Rendered} {s : Symbol}

theorem emits_converted (allowed : scene.target.refusedCast? x.mode e.static e.converted = none)
    (h : Emits (r.bare e) scene x) :
    Emits (r.value (some e)) scene (scene.target.convert scene.world.index e.static e.converted x) := by
  refine h.bind (.bind .target ?_)
  simp only [allowed]
  exact fun sheet => ⟨sheet, rfl⟩

/-- A plain node is not converted. -/
theorem emits_value (plain : Plain e.mark) (h : Emits (r.bare e) scene x) : Emits (r.value (some e)) scene x := by
  have kept : CastKind.decide e.static e.converted = .none := plain.cast
  have refused : scene.target.refusedCast? x.mode e.static e.converted = none := by
    unfold Target.refusedCast?
    split
    · rw [if_neg (by simp [kept])]
    · rw [if_neg (by simp [kept])]
    · rfl
  simpa only [Target.convert_of_none _ _ kept] using emits_converted refused h

theorem userOperator?_eq_none (plain : Plain e.mark) : e.userOperator? = none := by
  unfold Expr.userOperator?
  cases symbol : e.symbol with
  | none => rfl
  | some s =>
    have kind := plain.symbol s symbol
    have other : s.kind ≠ .operator := fun h => kind (h ▸ mem_cons_self)
    simp [other]

theorem emits_plainBinary {left right : Option Expr} (user : e.userOperator? = none) (coalesce : e.mark.op ≠ "??")
    (hx : Emits (r.value left) scene x) (hy : Emits (r.value right) scene y) :
    Emits (plainBinary r e left right) scene (.binary scene.target e.mark.op x y) := by
  refine hx.bind (hy.bind ?_)
  rw [user]
  refine .bind .dialect ?_
  rw [if_neg (by simp [coalesce])]
  exact .bind .target (.pure _)

/-- A binary operator on operands that are neither texts nor shared objects. -/
theorem emits_binary {left right : Option Expr} (user : e.userOperator? = none) (coalesce : e.mark.op ≠ "??")
    (text : isText (staticOf left) = false ∧ isText (staticOf right) = false)
    (shared : isShared (staticOf left) = false) (hx : Emits (r.value left) scene x) (hy : Emits (r.value right) scene y) :
    Emits (binary r e left right) scene (if scene.target = .typescript && e.mark.op = "/" && isIntegral (staticOf left) &&
          isIntegral (staticOf right) then
        .postfixed ("Math.trunc(" ++ (Rendered.binary scene.target e.mark.op x y).text ++ ")")
      else .binary scene.target e.mark.op x y) := by
  have written := emits_plainBinary user coalesce hx hy
  have joined : isConcatenation e left right = false := by simp [isConcatenation, text]
  refine .bind .target ?_
  cases target : scene.target
  all_goals rw [target] at written
  case typescript =>
    refine .bind written ?_
    simp only [user, decide_true, Option.isNone_none, Bool.and_true, Bool.true_and]
    split
    all_goals exact .pure _
  all_goals simpa [joined, shared, coalesce] using written

/-- A unary operator; Rust has no counters. -/
theorem emits_unary {operand : Option Expr} (plain : Plain e.mark)
    (known : e.mark.op ∈ prefixes scene.target) (hx : Emits (r.value operand) scene x) :
    Emits (unary r false e operand) scene (.unary e.mark.op e.mark.isPostfix x) := by
  have user := userOperator?_eq_none plain
  have written : Emits (plainUnary r e operand) scene (.unary e.mark.op e.mark.isPostfix x) := by
    refine hx.bind ?_
    rw [user]
    exact .pure _
  refine .bind .target ?_
  split
  · next rust =>
    have target : scene.target = .rust := by simp_all
    have other : (e.mark.op = "++" || e.mark.op = "--") = false ∧ e.mark.op ≠ "~" := by
      rw [target] at known
      revert known
      generalize e.mark.op = op
      revert op
      decide
    rw [other.1, if_neg other.2]
    exact written
  · exact written

theorem emits_assignment {left right : Option Expr} (ht : scene.target ≠ .rust)
    (plain : ∀ s ∈ symbolOf left, s.kind ∉ [.operator, .property, .event])
    (hx : Emits (r.value left) scene x) (hy : Emits (r.value right) scene y) : Emits (assignment r e left right) scene
      (.compound (x.operand Prec.unary ++ " " ++ assignmentOperator e ++ " " ++ y.operand Prec.assignment)
        Prec.assignment) := by
  refine .bind .target ?_
  rw [if_neg (by simp [ht])]
  refine hy.bind ?_
  split
  case' h_1 s l symbol =>
    have kind := plain s symbol
    simp only [mem_cons, not_or] at kind
    refine .bind .dialect ?_
    rw [if_neg (by simp [kind]), if_neg kind.2.1]
  all_goals exact hx.mutably.bind (.pure _)

theorem emits_conditional {cond yes no : Option Expr} (ht : scene.target ≠ .rust)
    (hx : Emits (r.value cond) scene x) (hy : Emits (r.value yes) scene y) (hz : Emits (r.value no) scene z) :
    Emits (conditional r cond yes no) scene
      (.compound (x.operand Prec.coalesce ++ " ? " ++ y.operand Prec.assignment ++ " : " ++
        z.operand Prec.conditional) Prec.conditional) := by
  refine .bind .target ?_
  rw [if_neg ht]
  exact .bind (hx.bind (.pure _)) (.bind (hy.bind (.pure _)) (.bind (hz.bind (.pure _)) (.pure _)))

theorem emits_parenthesized {inner : Option Expr} (hx : Emits (r.value inner) scene x) : Emits (parenthesized r inner) scene
      (if x.prec ≥ Prec.primary then x else .primary ("(" ++ x.text ++ ")")) :=
  hx.bind (.pure _)

theorem symbolName_local (kind : s.kind = .local ∨ s.kind = .parameter) (rename : s.rename = "") :
    scene.symbolName s = scene.target.fitted s.name := by
  unfold Scene.symbolName
  rw [if_neg (by simp [rename])]
  rcases kind with kind | kind
  all_goals cases scene.target <;> simp [kind]

theorem emits_identifier (symbol : e.symbol = some s)
    (kind : s.kind = .local ∨ s.kind = .parameter) (rename : s.rename = "") (type : s.type.any (·.isPrimitive) = true) :
    Emits (identifier r e) scene (.primary (scene.target.fitted s.name)) := by
  have copied : isCopied s.type = true := by
    cases ht : s.type with
    | none => simp [ht] at type
    | some t =>
      rw [ht, Option.any_some] at type
      simp [isCopied, type]
  have named : Emits (symbolName s) scene (scene.target.fitted s.name) :=
    fun sheet => ⟨sheet, by rw [← symbolName_local kind rename]; rfl⟩
  unfold identifier
  rw [symbol]
  rcases kind with kind | kind
  all_goals
    simp only [kind]
    refine named.bind (.bind .target (.get_bind fun sheet => ?_))
    rw [if_neg (by simp [copied])]
    exact .pure _

/-- An integer is written as it is, with a suffix of letters. -/
theorem literal_int (t : Target) (text : String) (type : Option Ty) :
    ∃ suffix ∈ ["", "L", "LL", "U", "ULL"], t.literal ⟨.int, text⟩ type = text ++ suffix := by
  have common (t : Target) :
      ∃ suffix ∈ ["", "L", "LL", "U", "ULL"], t.plainLiteral ⟨.int, text⟩ type = text ++ suffix := by
    simp only [Target.plainLiteral]
    split
    · exact ⟨t.dialect.longSuffix, by cases t <;> decide, rfl⟩
    · exact ⟨"", by decide, by simp⟩
  cases t with
  | cpp =>
    simp only [Target.literal]
    split
    case h_1 => exact ⟨"ULL", by decide, rfl⟩
    case h_5 => exact common .cpp
    all_goals exact ⟨"U", by decide, rfl⟩
  | csharp | java | rust | typescript => exact common _

variable {text : String}

theorem literal_digit (t : Target) (type : Option Ty) (digit : text.toList.head?.any Char.isDigit = true) :
    (t.literal ⟨.int, text⟩ type).toList.head?.any Char.isDigit = true := by
  obtain ⟨suffix, -, written⟩ := literal_int t text type
  rw [written]
  cases first : text.toList.head? with
  | none => simp [first] at digit
  | some c => simpa [first] using digit

theorem emits_constant (digit : text.toList.head?.any Char.isDigit = true) :
    Emits (constant e ⟨.int, text⟩) scene (.primary (scene.target.literal ⟨.int, text⟩ e.static)) := by
  have unsigned : Text.hasLead "-" (scene.target.literal ⟨.int, text⟩ e.static) = false := by
    have first := literal_digit scene.target e.static digit
    rw [Bool.eq_false_iff, Ne, lead_minus]
    intro minus
    rw [Option.mem_def.mp minus] at first
    exact absurd first (by decide)
  have spelled : Emits (literal ⟨.int, text⟩ e.static) scene (scene.target.literal ⟨.int, text⟩ e.static) :=
    .bind .target (.pure _)
  refine .bind .target ?_
  rw [if_neg (by simp)]
  refine spelled.bind ?_
  rw [unsigned]
  exact .pure _

end Nodes

/-! ## Leaves -/

/-- A word that a name can be, escaped or not. -/
def IsToken (cs : List Char) : Prop :=
  cs ≠ [] ∧ (∀ c ∈ cs, isWordChar c = true) ∧ cs.head?.any Char.isDigit = false

theorem isToken_of_isName {cs : List Char} (h : Text.IsName cs) : IsToken cs := by
  obtain ⟨⟨nonempty, chars⟩, first⟩ := h
  refine ⟨nonempty, fun c hc => by simp [isWordChar, chars c hc], ?_⟩
  cases head : cs.head? with
  | none => rfl
  | some c => exact first c head

variable {form : ExprForm} {levels : Nat} {name : String} {scene : Scene}

variable (t : Target) {m : Mark}

theorem isToken_fitted (h : Text.IsName name.toList) : IsToken (t.fitted name).toList := by
  have fit := isToken_of_isName (t.isName_fit h)
  obtain ⟨nonempty, chars, first⟩ := fit
  unfold Target.fitted Target.identifier
  split
  · have marked (c : Char) (hc : isWordChar c = true) : ∀ d ∈ c :: (t.fit name).toList, isWordChar d = true :=
      forall_mem_cons.mpr ⟨hc, chars⟩
    have suffixed : IsToken (t.fit name ++ "_").toList := by
      refine ⟨by simp, ?_, ?_⟩
      · intro c hc
        rw [String.toList_append, mem_append] at hc
        rcases hc with hc | hc
        · exact chars c hc
        · rw [mem_singleton.mp hc]
          decide
      · rw [String.toList_append, head?_append_of_ne_nil _ nonempty]
        exact first
    cases t with
    | csharp =>
      refine ⟨by simp [Target.escape], ?_, by simp [Target.escape]⟩
      simpa [Target.escape] using marked '@' (by decide)
    | rust =>
      refine ⟨by simp [Target.escape], ?_, by simp [Target.escape]⟩
      have tail := marked '#' (by decide)
      simpa [Target.escape, show isWordChar 'r' = true by decide] using tail
    | cpp | java | typescript => exact suffixed
  · exact ⟨nonempty, chars, first⟩

theorem renders_name (h : Text.IsName name.toList) : Renders t (.primary (t.fitted name)) (.name (t.fitted name)) := by
  obtain ⟨nonempty, chars, first⟩ := isToken_fitted t h
  have leaf : atom (t.fitted name) = .name (t.fitted name) := if_neg (by simp [first])
  exact leaf ▸ Written.word nonempty chars

theorem renders_number {text : String} (type : Option Ty) (word : Text.IsWord text.toList)
    (digit : text.toList.head?.any Char.isDigit = true) :
    Renders t (.primary (t.literal ⟨.int, text⟩ type)) (.number (t.literal ⟨.int, text⟩ type)) := by
  have leaf : atom (t.literal ⟨.int, text⟩ type) = .number (t.literal ⟨.int, text⟩ type) :=
    if_pos (literal_digit t type digit)
  obtain ⟨suffix, letters, written⟩ := literal_int t text type
  refine leaf ▸ Written.word ?_ ?_
  · change (t.literal ⟨.int, text⟩ type).toList ≠ []
    rw [written, String.toList_append]
    exact append_ne_nil_of_left_ne_nil word.1 _
  · have all : ["", "L", "LL", "U", "ULL"].all (fun suffix => suffix.toList.all isWordChar) = true := by decide
    intro c hc
    change c ∈ (t.literal ⟨.int, text⟩ type).toList at hc
    rw [written, String.toList_append, mem_append] at hc
    rcases hc with hc | hc
    · simp [isWordChar, word.2 c hc]
    · exact all_eq_true.mp (all_eq_true.mp all suffix letters) c hc

/-! ## Whole trees -/

/-- A binary operator is rendered as its reading, also where its quotient is truncated. -/
theorem renders_binary {t : Target} {op : String} (left right : Option Ty) {x y : Rendered} {a b : Reading}
    (hop : op ∈ t.levels.map (·.1)) (hx : Renders t x a) (hy : Renders t y b) : Renders t
      (if t = .typescript && op = "/" && isIntegral left && isIntegral right then
        .postfixed ("Math.trunc(" ++ (Rendered.binary t op x y).text ++ ")")
      else .binary t op x y) (binaryReading t op left right a b) := by
  have written := Renders.binary hop hx hy
  unfold binaryReading
  split
  · next truncates =>
    have target : t = .typescript := by simp_all
    subst target
    exact written.truncated
  · exact written

/-- Each node takes one level of the emitter; its parts are emitted by what is left. -/
theorem exists_level (deep : (Expr.node m form).depth ≤ levels) : ∃ rest, levels = rest + 1 ∧ form.depth ≤ rest := by
  obtain ⟨rest, rfl⟩ := Nat.exists_eq_add_of_le' deep
  exact ⟨rest + form.depth, rfl, Nat.le_add_left _ _⟩

theorem emits_node {x : Rendered} (plain : Plain m)
    (h : Emits (Emit.expression (Emitter.within levels) false (Expr.node m form)) scene x) :
    Emits ((Emitter.within (levels + 1)).value (some (.node m form))) scene x :=
  emits_value plain h

/-- **Every tree of operators is emitted, and as a rendering of its reading.** -/
theorem OperatorTree.renders {e : Expr} {a : Reading} (h : OperatorTree scene.target e a) :
    ∀ levels ≥ e.depth, ∃ x, Emits ((Emitter.within levels).value (some e)) scene x ∧ Renders scene.target x a := by
  induction h
  all_goals
    intro levels deep
    obtain ⟨levels, rfl, parts⟩ := exists_level deep
  case name plain symbol kind word rename type =>
    exact ⟨_, emits_node plain (emits_identifier symbol kind rename type), renders_name _ word⟩
  case number plain word digit =>
    exact ⟨_, emits_node plain (emits_constant digit), renders_number _ _ word digit⟩
  case paren plain inner ih =>
    obtain ⟨x, hx, rx⟩ := ih levels parts
    exact ⟨_, emits_node plain (emits_parenthesized hx), rx.parenthesized⟩
  case binary plain known coalesce left right ihl ihr =>
    obtain ⟨x, hx, rx⟩ := ihl levels (Nat.le_trans (Nat.le_max_left _ _) parts)
    obtain ⟨y, hy, ry⟩ := ihr levels (Nat.le_trans (Nat.le_max_right _ _) parts)
    have text := And.intro left.plain.text right.plain.text
    exact ⟨_, emits_node plain (emits_binary (userOperator?_eq_none plain) coalesce text left.plain.shared hx hy),
      renders_binary _ _ known rx ry⟩
  case unary plain known before operand ih =>
    obtain ⟨x, hx, rx⟩ := ih levels parts
    refine ⟨_, emits_node plain (emits_unary plain known hx), ?_⟩
    rw [show (Expr.node _ _).mark.isPostfix = false from before]
    exact rx.unary known
  case counter plain known behind operand ih =>
    obtain ⟨x, hx, rx⟩ := ih levels parts
    refine ⟨_, emits_node plain (emits_unary plain (mem_append_right _ known) hx), ?_⟩
    rw [show (Expr.node _ _).mark.isPostfix = true from behind]
    exact rx.counter known
  case assignment plain ht known left right ihl ihr =>
    obtain ⟨x, hx, rx⟩ := ihl levels (Nat.le_trans (Nat.le_max_left _ _) parts)
    obtain ⟨y, hy, ry⟩ := ihr levels (Nat.le_trans (Nat.le_max_right _ _) parts)
    exact ⟨_, emits_node plain (emits_assignment ht left.plain.symbol hx hy), rx.assignment ht known ry⟩
  case conditional plain ht cond yes no ihc ihy ihn =>
    obtain ⟨x, hx, rx⟩ := ihc levels (Nat.le_trans (Nat.le_max_left _ _) parts)
    have branches := Nat.le_trans (Nat.le_max_right _ _) parts
    obtain ⟨y, hy, ry⟩ := ihy levels (Nat.le_trans (Nat.le_max_left _ _) branches)
    obtain ⟨z, hz, rz⟩ := ihn levels (Nat.le_trans (Nat.le_max_right _ _) branches)
    exact ⟨_, emits_node plain (emits_conditional ht hx hy hz), rx.conditional ht ry rz⟩

/-- **Parenthesization is faithful**: a tree of operators is emitted, and its text reads back as the tree. -/
theorem read_emitted_text (scene : Scene) (sheet : Sheet) {e : Expr} {a : Reading}
    (tree : OperatorTree scene.target e a) {levels : Nat} (deep : e.depth ≤ levels) :
    ∃ x sheet', (Emitter.within levels).value (some e) scene sheet = (.ok x, sheet') ∧
      read scene.target x.text = some a := by
  obtain ⟨x, emits, renders⟩ := tree.renders levels deep
  obtain ⟨sheet', run⟩ := emits sheet
  exact ⟨x, sheet', run, renders.read_eq⟩

def integerMark (op : String) (isPostfix : Bool) (symbol : Option Symbol) : Mark where
  place := {}
  op
  isPostfix
  symbol
  static := some (.primitive .int32)

def nestedDifference : Expr :=
  let integer (name : String) : Expr :=
    .node (integerMark "" false (some { kind := .local, name, type := some (.primitive .int32) })) .identifier
  let two : Expr := .node (integerMark "" false none) (.literal ⟨.int, "2"⟩)
  let apply (op : String) (form : ExprForm) : Expr := .node (integerMark op false none) form
  let negated := apply "-" (.unary (some (apply "" (.paren (some (apply "-" (.unary (some two))))))))
  let counted := Expr.node (integerMark "++" true none) (.unary (some (integer "c")))
  apply "-" (.binary
    (some (apply "" (.paren (some (apply "/" (.binary (some (integer "a")) (some negated)))))))
    (some (apply "" (.paren (some (apply "-" (.binary (some (integer "b")) (some counted))))))))

theorem read_emitted_nestedDifference :
    let scene : Scene := { target := .typescript, world := {}, templates := {}, decl := default, artifact := default }
    let a : Reading := .infixed "-"
      (.call "Math.trunc" (.infixed "/" (.name "a") (.prefixed "-" (.prefixed "-" (.number "2")))))
      (.infixed "-" (.name "b") (.postfixed "++" (.name "c")))
    OperatorTree .typescript nestedDifference a ∧
      ∃ x sheet',
        (Emitter.within nestedDifference.depth).value (some nestedDifference) scene scene.blank = (.ok x, sheet') ∧
          read .typescript x.text = some a := by
  intro scene a
  have plain (op : String) (isPostfix : Bool) : Plain (integerMark op isPostfix none) :=
    ⟨by simp [integerMark], rfl, rfl, rfl⟩
  have name (name : String) (word : Text.IsName name.toList) := OperatorTree.name (t := .typescript)
    (m := integerMark "" false (some { kind := .local, name, type := some (.primitive .int32) }))
    ⟨by simp [integerMark], rfl, rfl, rfl⟩ rfl (.inl rfl) word rfl rfl
  have two : OperatorTree .typescript (.node (integerMark "" false none) (.literal ⟨.int, "2"⟩)) (.number "2") :=
    .number (plain "" false) (by decide) (by decide)
  have negated := OperatorTree.unary (plain "-" false) (by decide) rfl
    (.paren (plain "" false) (.unary (plain "-" false) (by decide) rfl two))
  have counted := OperatorTree.counter (plain "++" true) (by decide) rfl (name "c" (by decide))
  have tree : OperatorTree .typescript nestedDifference a :=
    .binary (plain "-" false) (by decide) (by decide)
      (.paren (plain "" false) (.binary (plain "/" false) (by decide) (by decide) (name "a" (by decide)) negated))
      (.paren (plain "" false) (.binary (plain "-" false) (by decide) (by decide) (name "b" (by decide)) counted))
  exact ⟨tree, read_emitted_text scene scene.blank tree (Nat.le_refl _)⟩

end Polyglot.Operators
