import Polyglot.Proofs.ArgumentLists
import Polyglot.Proofs.TemplateText

/-!
# Grouping in filled templates

What is put in the place of a variable keeps its grouping when it binds tightly, or when the variable stands alone between
parentheses, brackets or commas. Arguments are put in as they are, so a filled template groups them right exactly when those in
bare places bind tightly (`expand_grouped_iff`). The default templates have just three bare places for arguments, all for Rust.
-/

namespace Polyglot

open List

namespace Template

/-! ## Bare places -/

/-- May an argument begin behind the character? -/
def opens (c : Char) : Bool := c = '(' || c = '[' || c = ','

/-- Does what follows end an argument? -/
def closes : List Segment → Bool
  | .char c :: rest => if c = ' ' then closes rest else c = ')' || c = ']' || c = ','
  | _ => false

/-- **The pieces of a template, with its bare places.** A variable is in a bare place unless it stands alone, blanks aside,
between a parenthesis, a bracket or a comma and another one; `opened` says whether one of them stands before the pieces. -/
def placed : (opened : Bool) → List Segment → List (Segment × Bool)
  | _, [] => []
  | opened, .char c :: rest => (.char c, false) :: placed (if c = ' ' then opened else opens c) rest
  | opened, .variable v :: rest => (.variable v, !(opened && closes rest)) :: placed false rest

/-- The variables in bare places. -/
def bare (t : Template) : List Variable :=
  (placed false t.segments).filterMap fun
    | (.variable v, true) => some v
    | _ => none

/-! ## Filling with groups -/

/-- What stands for some variables, with how tightly it binds. -/
abbrev Rows := List (String × Rendered)

def Rows.texts (rows : Rows) : Values := rows.map fun row => (row.1, row.2.text)

theorem Rows.texts_append (rows more : Rows) : Rows.texts (rows ++ more) = rows.texts ++ more.texts := map_append

theorem Rows.texts_reverse (rows : Rows) : Rows.texts rows.reverse = rows.texts.reverse := map_reverse

/-- The text of a piece: in a bare place, what binds looser than a call is put in parentheses. -/
def groupedText (rows : Rows) : Segment × Bool → String
  | (.char c, _) => String.singleton c
  | (.variable v, isBare) =>
    ((rows.lookup v.token).map fun x => if isBare then x.operand Prec.postfixed else x.text).getD ""

/-- **The template filled so that everything keeps its grouping.** -/
def renderGrouped (t : Template) (rows : Rows) : Except Fault String :=
  match t.vars.find? (fun v => (rows.lookup v.token).isNone) with
  | some v => .error (Fault.unboundVariable t.symbol v.token)
  | none => .ok (String.join ((placed false t.segments).map (groupedText rows)))

variable {t : Template} {rows : Rows} {v : Variable}

theorem lookup_texts (rows : Rows) (token : String) : rows.texts.lookup token = (rows.lookup token).map (·.text) := by
  induction rows with
  | nil => rfl
  | cons row rows ih =>
    have head : Rows.texts (row :: rows) = (row.1, row.2.text) :: Rows.texts rows := rfl
    rw [head, lookup_cons_ite, lookup_cons_ite, ih]
    split <;> rfl

theorem mem_bare : v ∈ t.bare ↔ (.variable v, true) ∈ placed false t.segments := by
  rw [bare, mem_filterMap]
  constructor
  · rintro ⟨⟨_ | u, _ | _⟩, mem, ⟨⟩⟩
    exact mem
  · intro mem
    exact ⟨_, mem, rfl⟩

/-- A text in parentheses is longer. -/
theorem length_le_operand (x : Rendered) (least : Prec) : x.text.toList.length ≤ (x.operand least).toList.length := by
  rw [Rendered.operand]
  split
  · simp only [String.toList_append, length_append]
    omega
  · exact Nat.le_refl _

theorem text_eq_operand_iff {x : Rendered} {least : Prec} : x.text = x.operand least ↔ least ≤ x.prec := by
  rw [Rendered.operand]
  split
  · next looser =>
    refine iff_of_false (fun same => ?_) (not_le.mpr looser)
    have lengths := congrArg (·.toList.length) same
    simp at lengths
    omega
  · next tight => exact iff_of_true rfl (not_lt.mp tight)

/-- A piece is at least as long with groups, and the same exactly when nothing loose is in a bare place. -/
theorem segmentText_grouped (rows : Rows) (segment : Segment) (isBare : Bool) :
    (segmentText rows.texts segment).toList.length ≤ (groupedText rows (segment, isBare)).toList.length ∧
      (segmentText rows.texts segment = groupedText rows (segment, isBare) ↔
        ∀ v x, (segment, isBare) = (.variable v, true) → rows.lookup v.token = some x → Prec.postfixed ≤ x.prec) := by
  cases segment with
  | char c => exact ⟨Nat.le_refl _, iff_of_true rfl (by rintro v x ⟨⟩)⟩
  | «variable» u =>
    rw [segmentText, groupedText, lookup_texts]
    cases found : rows.lookup u.token with
    | none =>
      refine ⟨Nat.le_refl _, iff_of_true rfl ?_⟩
      rintro v x ⟨⟩ given
      rw [found] at given
      cases given
    | some x =>
      cases isBare with
      | false => exact ⟨Nat.le_refl _, iff_of_true rfl (by rintro v x ⟨⟩)⟩
      | true =>
        refine ⟨length_le_operand x _, text_eq_operand_iff.trans ⟨?_, fun tight => tight u x rfl found⟩⟩
        rintro tight v y ⟨⟩ given
        rw [found] at given
        cases given
        exact tight

theorem map_fst_placed (opened : Bool) (segments : List Segment) : (placed opened segments).map (·.1) = segments := by
  induction segments generalizing opened with
  | nil => rfl
  | cons segment segments ih =>
    cases segment <;> rw [placed, map_cons, ih]

/-- **Pieces filled with and without groups** give one text exactly when nothing loose is in a bare place: each piece is at
least as long with groups, so none can make up for another. -/
theorem join_grouped (rows : Rows) (pieces : List (Segment × Bool)) :
    (String.join (pieces.map fun piece => segmentText rows.texts piece.1)).toList.length ≤
        (String.join (pieces.map (groupedText rows))).toList.length ∧
      (String.join (pieces.map fun piece => segmentText rows.texts piece.1) = String.join (pieces.map (groupedText rows)) ↔
        ∀ v x, (.variable v, true) ∈ pieces → rows.lookup v.token = some x → Prec.postfixed ≤ x.prec) := by
  induction pieces with
  | nil => exact ⟨Nat.le_refl _, iff_of_true rfl nofun⟩
  | cons piece pieces ih =>
    obtain ⟨shorter, same⟩ := segmentText_grouped rows piece.1 piece.2
    obtain ⟨restShorter, restSame⟩ := ih
    rw [map_cons, map_cons, String.join_cons, String.join_cons]
    constructor
    · rw [String.toList_append, String.toList_append, length_append, length_append]
      exact Nat.add_le_add shorter restShorter
    · constructor
      · intro whole
        have chars := congrArg String.toList whole
        rw [String.toList_append, String.toList_append] at chars
        have lengths := congrArg length chars
        rw [length_append, length_append] at lengths
        have first : (segmentText rows.texts piece.1).toList.length = (groupedText rows piece).toList.length := by
          have shorter : _ ≤ (groupedText rows piece).toList.length := shorter
          omega
        obtain ⟨one, others⟩ := append_inj chars first
        intro v x mem found
        rcases mem_cons.mp mem with here | mem
        · exact same.mp (String.toList_injective one) v x here.symm found
        · exact restSame.mp (String.toList_injective others) v x mem found
      · intro tight
        have one := same.mpr fun v x here => tight v x (mem_cons.mpr (.inl here.symm))
        have others := restSame.mpr fun v x mem => tight v x (mem_cons_of_mem _ mem)
        rw [one, others]

theorem mem_vars_of_mem_bare (mem : v ∈ t.bare) : v ∈ t.vars := by
  rw [mem_vars, ← map_fst_placed false t.segments]
  exact mem_map_of_mem (mem_bare.mp mem)

/-- **A filled template keeps all grouping exactly when what is in its bare places binds tightly**, if it has a value for
every variable; otherwise both are the same fault. -/
theorem render_eq_renderGrouped_iff : t.render rows.texts = t.renderGrouped rows ↔
      ((∀ v ∈ t.vars, (rows.lookup v.token).isSome) →
        ∀ v ∈ t.bare, ∀ x, rows.lookup v.token = some x → Prec.postfixed ≤ x.prec) := by
  have missing (v : Variable) : (rows.texts.lookup v.token).isNone = (rows.lookup v.token).isNone := by
    rw [lookup_texts, Option.isNone_map]
  simp only [render, renderGrouped, missing]
  cases found : t.vars.find? (fun v => (rows.lookup v.token).isNone) with
  | some v =>
    refine iff_of_true rfl fun all => ?_
    have mem := mem_of_find?_eq_some found
    have none := find?_some found
    rw [Option.isNone_iff_eq_none] at none
    have given := all v mem
    rw [none] at given
    cases given
  | none =>
    have all (v : Variable) (mem : v ∈ t.vars) : (rows.lookup v.token).isSome := by
      simpa using find?_eq_none.mp found v mem
    have pieces : t.segments.map (segmentText rows.texts) =
        (placed false t.segments).map fun piece => segmentText rows.texts piece.1 := by
      conv_lhs => rw [← map_fst_placed false t.segments, map_map]
      rfl
    rw [pieces, Except.ok.injEq, (join_grouped rows _).2]
    constructor
    · intro tight _ v mem x
      exact tight v x (mem_bare.mp mem)
    · intro tight v x mem
      exact tight all v (mem_bare.mpr mem) x

end Template

/-! ## Tables -/

namespace Templates

theorem mem_of_find? {table : Templates} {symbol target : String} {t : Template} (known : table.find? symbol target = some t) :
    ((symbol, target), t) ∈ table.rows :=
  mem_of_lookup known

def Entry.rows (e : Entry) : List ((String × String) × Template) :=
  e.texts.map fun row => ((e.symbol, row.1), ⟨e.symbol, row.2⟩)

/-- **No text of the default table is refused, and none replaces another.** -/
theorem default_eq : Templates.default = ⟨defaultEntries.flatMap Entry.rows⟩ := by
  rfl

end Templates

/-! ## What arguments bind like -/

/-- A literal text: a negative number binds like a negation. -/
def Rendered.literal (text : String) : Rendered :=
  if Text.hasLead "-" text then { text, prec := Prec.unary } else .primary text

/-- Expressions behind each other; one alone is what it is. -/
def Rendered.sequence : List Rendered → Rendered
  | [x] => x
  | xs => { text := Text.join ", " (xs.map (·.text)), prec := Prec.lowest }

@[simp] theorem Rendered.text_literal (text : String) : (Rendered.literal text).text = text := by
  rw [Rendered.literal]
  split <;> rfl

@[simp] theorem Rendered.text_sequence (xs : List Rendered) :
    (Rendered.sequence xs).text = Text.join ", " (xs.map (·.text)) := by
  cases xs with
  | nil => rfl
  | cons x xs =>
    cases xs with
    | nil => simp [Rendered.sequence, Text.join]
    | cons y ys => rfl

namespace Emit

/-- What is done to each result may be done in the end. -/
theorem mapM_map_result {α β γ : Type} (f : α → Emit β) (g : β → γ) (l : List α) :
    l.mapM (fun a => g <$> f a) = (·.map g) <$> l.mapM f := by
  induction l with
  | nil => simp
  | cons a l ih => simp [ih]

variable (r : Emitter)

/-- An argument, with how tightly it binds. -/
def argumentRendered (isRaw : Bool) (e : Option Expr) : Emit Rendered := do
  match isRaw, constantOf? e with
  | true, some c => do pure (.literal (← literal c (staticOf e)))
  | _, _ => r.value e

/-- What is bound to a parameter as expressions, with how tightly it binds. -/
def valuesRendered (isRaw : Bool) (b : Bound (Option Expr)) : Emit Rendered := do
  let values ← boundValues b
  if b.parameter.isVariadic then
    let items ← values.mapM (argumentRendered r isRaw)
    if !b.packs || isRaw then pure (.sequence items)
    else newArray (some b.element) (.items (items.map (·.text)))
  else
    match values with
    | [e] =>
      let x ← argumentRendered r isRaw e
      if b.passing = .byValue then pure x else do pure { x with text := ← passed b.passing (placeOf e) x.text }
    | values =>
      throw (.assertion ("parameter " ++ b.parameter.name ++ " bound to " ++ Text.decimal values.length ++ " arguments"))

/-- **What is bound to a parameter, with how tightly it binds.** -/
def boundRendered (isRaw : Bool) (b : Bound (Option Expr)) : Emit Rendered := do
  match b.source, b.constant with
  | .caller, some c | .constant, some c => do pure (.literal (← literal c (some b.type)))
  | .sentinel, _ => do pure (.primary (← defaultValue (some b.type)))
  | _, _ => valuesRendered r isRaw b

theorem argumentText_eq (isRaw : Bool) (e : Option Expr) :
    argumentText r isRaw e = (·.text) <$> argumentRendered r isRaw e := by
  cases isRaw with
  | false => simp [argumentText, argumentRendered]
  | true =>
    cases constant : constantOf? e <;> simp [argumentText, argumentRendered, constant]

/-- The text of an argument is all that is put in. -/
theorem argument_eq (isRaw : Bool) (b : Bound (Option Expr)) : argument r isRaw b = (·.text) <$> boundRendered r isRaw b := by
  unfold argument
  split
  · next c source constant => simp [boundRendered, source, constant]
  · next c source constant => simp [boundRendered, source, constant]
  · next source => simp [boundRendered, source, Rendered.primary]
  · next notSentinel notCaller notConstant =>
    have general : boundRendered r isRaw b = valuesRendered r isRaw b := by
      unfold boundRendered
      split
      · next c source constant => exact (notCaller c source constant).elim
      · next c source constant => exact (notConstant c source constant).elim
      · next source => exact (notSentinel source).elim
      · rfl
    rw [general, valuesRendered, map_bind]
    refine congrArg (boundValues b >>= ·) (funext fun values => ?_)
    by_cases variadic : b.parameter.isVariadic
    · have texts : values.mapM (argumentText r isRaw) = (·.map (·.text)) <$> values.mapM (argumentRendered r isRaw) := by
        rw [← mapM_map_result]
        exact congrArg values.mapM (funext (argumentText_eq r isRaw))
      rw [if_pos variadic, if_pos variadic, texts]
      simp only [map_bind, bind_map_left]
      refine congrArg (values.mapM (argumentRendered r isRaw) >>= ·) (funext fun items => ?_)
      split
      · simp
      · simp
    · rw [if_neg variadic, if_neg variadic]
      rcases values with _ | ⟨e, _ | ⟨e', rest⟩⟩
      · rfl
      · simp only [argumentText_eq, map_bind, bind_map_left]
        refine congrArg (argumentRendered r isRaw e >>= ·) (funext fun x => ?_)
        split
        all_goals simp
      · rfl

namespace TemplateUse

open Template

variable (u : TemplateUse)

/-- Texts that are taken to bind as they should. -/
def fixed (values : Values) : Rows := values.map fun row => (row.1, .primary row.2)

@[simp] theorem texts_fixed (values : Values) : (fixed values).texts = values := by
  rw [Rows.texts, fixed, map_map]
  exact map_id _

def rowsFor (name : String) (value : Variable → Emit Rendered) : Emit Rows :=
  (u.template.vars.filter (·.name = name)).mapM fun v => do pure (v.token, ← value v)

def parameterRows : Emit Rows := do
  if u.symbol.parameters.isEmpty then pure []
  else
    let bounds ← bound u.symbol (u.receiver.map some) u.args u.node.place
    let rows ← bounds.mapM fun b =>
      u.rowsFor b.parameter.name fun v => boundRendered r (v.modifier = Variable.raw) b
    pure rows.flatten

/-- The value that the member is set to. -/
def assignedValues : Emit Values :=
  match u.assigned with
  | some value => u.valuesFor "value" fun _ => pure (value.operand Prec.assignment)
  | none => pure []

/-- **What stands for the variables of a template**, the first one listed counting. -/
def rows : Emit Rows := do
  let assigned ← u.assignedValues
  let this ← u.thisValues
  let parameters ← u.parameterRows r
  let types ← u.typeValues
  pure (fixed assigned ++ fixed this ++ parameters ++ fixed types).reverse

def filled (text : Except Fault String) : Emit Rendered := do
  let text ← ofExcept text
  pure { text, prec := templatePrecedence text }

/-- **The template filled so that every argument keeps its grouping.** -/
def expandGrouped : Emit Rendered := do
  let rows ← u.rows r
  filled (u.template.renderGrouped rows)

theorem valuesFor_eq (name : String) (value : Variable → Emit Rendered) :
    u.valuesFor name (fun v => (·.text) <$> value v) = Rows.texts <$> u.rowsFor name value := by
  unfold valuesFor rowsFor Rows.texts
  rw [← mapM_map_result]
  refine congrArg (mapM · _) (funext fun v => ?_)
  simp

theorem parameterValues_eq : u.parameterValues r = Rows.texts <$> u.parameterRows r := by
  unfold parameterValues parameterRows
  split
  · simp [Rows.texts]
  · rw [map_bind]
    refine congrArg (bound u.symbol (u.receiver.map some) u.args u.node.place >>= ·) (funext fun bounds => ?_)
    simp only [argument_eq, valuesFor_eq, mapM_map_result, map_bind, bind_map_left]
    refine congrArg (mapM _ bounds >>= ·) (funext fun rows => ?_)
    rw [map_pure, Rows.texts, map_flatten]
    rfl

/-- A template is filled with the texts of what stands for its variables. -/
theorem expand_eq : u.expand r = u.rows r >>= fun rows => filled (u.template.render rows.texts) := by
  have each (assigned this : Values) (parameters : Rows) (types : Values) :
      Rows.texts (fixed assigned ++ fixed this ++ parameters ++ fixed types).reverse =
        (assigned ++ this ++ parameters.texts ++ types).reverse := by
    rw [Rows.texts_reverse, Rows.texts_append, Rows.texts_append, Rows.texts_append, texts_fixed, texts_fixed, texts_fixed]
  unfold expand rows assignedValues filled
  rw [parameterValues_eq]
  cases u.assigned <;> simp only [bind_assoc, pure_bind, bind_map_left, each]

theorem filled_inj {scene : Scene} {sheet : Sheet} {x y : Except Fault String} :
    filled x scene sheet = filled y scene sheet ↔ x = y := by
  refine ⟨fun same => ?_, fun same => same ▸ rfl⟩
  cases x <;> cases y
  all_goals cases same
  all_goals rfl

/-- **A use of a template keeps all grouping exactly when what it puts in bare places binds tightly.** -/
theorem expand_grouped_iff (scene : Scene) (sheet : Sheet) : u.expand r scene sheet = u.expandGrouped r scene sheet ↔
      ∀ rows sheet', u.rows r scene sheet = (.ok rows, sheet') → (∀ v ∈ u.template.vars, (rows.lookup v.token).isSome) →
        ∀ v ∈ u.template.bare, ∀ x, rows.lookup v.token = some x → Prec.postfixed ≤ x.prec := by
  rw [expand_eq, expandGrouped, bind_apply, bind_apply]
  rcases run : u.rows r scene sheet with ⟨outcome, sheet'⟩
  cases outcome with
  | error f => exact iff_of_true rfl fun _ _ same => by cases congrArg Prod.fst same
  | ok rows =>
    refine filled_inj.trans (render_eq_renderGrouped_iff.trans ⟨?_, fun tight => tight rows sheet' rfl⟩)
    rintro tight _ _ ⟨⟩
    exact tight

/-! ### Where loose texts come from -/

section Parameters

variable {scene : Scene} {u : TemplateUse} {rows : Rows} {row : String × Rendered}

def IsParameterRow (u : TemplateUse) (row : String × Rendered) : Prop :=
  ∃ q ∈ u.symbol.parameters, ∃ v ∈ u.template.vars, v.name = q.name ∧ row.1 = v.token

theorem isParameterRow_rowsFor {q : Parameter} (declared : q ∈ u.symbol.parameters) {value : Variable → Emit Rendered}
    (run : MayGive scene (u.rowsFor q.name value) rows) (mem : row ∈ rows) : u.IsParameterRow row := by
  obtain ⟨v, here, run⟩ := exists_mem_of_forall₂ run.of_mapM mem
  obtain ⟨_, -, rfl⟩ := run.of_map
  obtain ⟨listed, named⟩ := mem_filter.mp here
  exact ⟨q, declared, v, listed, of_decide_eq_true named, rfl⟩

theorem isParameterRow_parameterRows (run : MayGive scene (u.parameterRows r) rows) (mem : row ∈ rows) :
    u.IsParameterRow row := by
  unfold parameterRows at run
  split at run
  · rw [run.of_pure] at mem
    cases mem
  · obtain ⟨bounds, ⟨sheet, bound⟩, run⟩ := run.of_bind
    have parameters := Binding.parameters_of_bind bound.of_bound
    obtain ⟨groups, each, rfl⟩ := run.of_map
    obtain ⟨rows, inside, mem⟩ := mem_flatten.mp mem
    obtain ⟨b, here, run⟩ := exists_mem_of_forall₂ each.of_mapM inside
    exact isParameterRow_rowsFor (parameters ▸ mem_map_of_mem here) run mem

/-- **What binds loosely stands for a parameter.** -/
theorem isParameterRow_of_loose {sheet sheet' : Sheet} (run : u.rows r scene sheet = (.ok rows, sheet'))
    (mem : row ∈ rows) (loose : row.2.prec < Prec.postfixed) : u.IsParameterRow row := by
  obtain ⟨assigned, _, -, run⟩ := bind_eq_ok run
  obtain ⟨this, _, -, run⟩ := bind_eq_ok run
  obtain ⟨parameters, _, given, run⟩ := bind_eq_ok run
  obtain ⟨types, _, -, run⟩ := bind_eq_ok run
  cases run
  have tight (values : Values) : row ∉ fixed values := by
    intro mem
    obtain ⟨_, -, rfl⟩ := mem_map.mp mem
    exact absurd loose (show ¬ Prec.primary < Prec.postfixed by decide)
  simp only [mem_reverse, mem_append, tight, false_or, or_false] at mem
  exact isParameterRow_parameterRows r ⟨_, _, given⟩ mem

end Parameters

/-! ## The default templates -/

def elementSetter : String := "System.Collections.Generic.List`1.Item.set"

/-- Does a variable of a default template stand for an argument? The others stand for the receiver, for a type, and for the
value that an element is set to. -/
def isArgument (key : String) (v : Variable) : Bool :=
  v.name ≠ "this" && v.name ≠ "T" && !(v.name = "value" && key = elementSetter)

/-- The arguments in bare places of the default templates. -/
def bareArguments : List (String × String) :=
  [("System.Math.Abs", "value"), ("System.Collections.Generic.List`1.Item", "index"), (elementSetter, "index")]

variable {key : String} {v : Variable} {target : Target}

theorem isArgument_of_bare (mem : (key, v.name) ∈ bareArguments) : isArgument key v = true := by
  have all : bareArguments.all (fun row => isArgument row.1 ⟨row.2, ""⟩) = true := by decide +kernel
  exact all_eq_true.mp all _ mem

/-- **The bare places of the default templates**: those for arguments are in three templates for Rust. -/
theorem default_bare {t : Template} (known : Templates.default.find? key target.name = some t)
    (mem : v ∈ t.vars) (argument : isArgument key v = true) : v ∈ t.bare ↔ target = .rust ∧ (key, v.name) ∈ bareArguments := by
  have all : (Templates.defaultEntries.flatMap Templates.Entry.rows).all (fun row => row.2.vars.all fun v =>
      !isArgument row.1.1 v ||
        (row.2.bare.contains v == (row.1.2 = "rust" && bareArguments.contains (row.1.1, v.name)))) = true := by
    decide +kernel
  have here := all_eq_true.mp (all_eq_true.mp all _ (Templates.mem_of_find? known)) v mem
  have rust : target.name = "rust" ↔ target = .rust := by
    cases target <;> decide
  rw [argument, Bool.not_true, Bool.false_or, beq_iff_eq, Bool.eq_iff_iff, contains_iff_mem, Bool.and_eq_true,
    decide_eq_true_iff, contains_iff_mem, rust] at here
  exact here

/-- **Which uses of the default templates keep the grouping of their arguments.** For every target, every default template
and every use of it:

* The expansion is the one in which everything in a bare place that binds looser than a call is put in parentheses, exactly
  when nothing there does.
* The bare places for arguments are in three templates for Rust.
* So when no parameter has the name of another variable, every expansion for the other targets and of the other members is
  grouped, and one of those three is exactly when the argument in its bare place binds as tightly as a call. -/
theorem default_expansions_grouped {key : String} {u : TemplateUse}
    (known : Templates.default.find? key target.name = some u.template) :
    (∀ r scene sheet, u.expand r scene sheet = u.expandGrouped r scene sheet ↔
      ∀ rows sheet', u.rows r scene sheet = (.ok rows, sheet') →
        (∀ v ∈ u.template.vars, (rows.lookup v.token).isSome) →
        ∀ v ∈ u.template.bare, ∀ x, rows.lookup v.token = some x → Prec.postfixed ≤ x.prec) ∧
    (∀ v ∈ u.template.vars, isArgument key v = true →
      (v ∈ u.template.bare ↔ target = .rust ∧ (key, v.name) ∈ bareArguments)) ∧
    ((∀ q ∈ u.symbol.parameters, ∀ v ∈ u.template.vars, v.name = q.name → isArgument key v = true) →
      ∀ r scene sheet, u.expand r scene sheet = u.expandGrouped r scene sheet ↔
        (target = .rust → ∀ rows sheet', u.rows r scene sheet = (.ok rows, sheet') →
          (∀ v ∈ u.template.vars, (rows.lookup v.token).isSome) →
          ∀ v ∈ u.template.vars, (key, v.name) ∈ bareArguments →
            ∀ x, rows.lookup v.token = some x → Prec.postfixed ≤ x.prec)) := by
  refine ⟨fun r scene sheet => expand_grouped_iff r u scene sheet, fun v mem argument => ?_, ?_⟩
  · exact default_bare known mem argument
  intro declared r scene sheet
  rw [expand_grouped_iff]
  constructor
  · intro tight rust rows sheet' run all v mem named x found
    have argument := isArgument_of_bare named
    exact tight rows sheet' run all v ((default_bare known mem argument).mpr ⟨rust, named⟩) x found
  · intro tight rows sheet' run all v bare x found
    by_contra loose
    obtain ⟨q, parameter, w, listed, named, same⟩ :=
      isParameterRow_of_loose r run (mem_of_lookup found) (not_le.mp loose)
    obtain rfl : v = w := token_inj_of_mem_vars (mem_vars_of_mem_bare bare) listed same
    obtain ⟨rust, place⟩ := (default_bare known listed (declared q parameter v listed named)).mp bare
    exact loose (tight rust rows sheet' run all v listed place x found)

def numberCall (key : String) (names : List String) (args : List Expr) : Expr :=
  let parameters := names.map fun name => { name, type := .int : Parameter }
  let method : Symbol := { id := key, kind := .method, name := key, type := some .int, isStatic := true, parameters }
  .node { place := {}, symbol := some method, static := some .int }
    (.call (.node { place := {}, symbol := some method } .identifier) [] (args.map fun value => { value }))

def localNumber (name : String) : Expr :=
  .node { place := {}, symbol := some { kind := .local, name, type := some .int }, static := some .int } .identifier

def localDifference : Expr :=
  .node { place := {}, op := "-", static := some .int } (.binary (some (localNumber "a")) (some (localNumber "b")))

def numberUse (key raw : String) (names : List String) (args : List Expr) : TemplateUse :=
  let node := numberCall key names args
  { template := ⟨key, raw⟩, node, symbol := node.symbol.getD default, receiver := none
    receiverText := .primary "", args := args.map fun e => { value := some e } }

/-- The greater of two numbers keeps the grouping of both in Java, whatever they are and however they are emitted. -/
theorem default_expansions_grouped_max :
    let u := numberUse "System.Math.Max" "Math.max(\x7ba\x7d, \x7bb\x7d)" ["a", "b"] [localDifference, localDifference]
    Templates.default.find? "System.Math.Max" Target.java.name = some u.template ∧
      ∀ r scene sheet, u.expand r scene sheet = u.expandGrouped r scene sheet := by
  intro u
  have known : Templates.default.find? "System.Math.Max" Target.java.name = some u.template := by
    rw [Templates.default_eq]
    decide +kernel
  have named : u.template.vars.all (isArgument "System.Math.Max") = true := by decide +kernel
  have law := (@default_expansions_grouped .java "System.Math.Max" u known).2.2 fun q _ v mem _ =>
    all_eq_true.mp named v mem
  exact ⟨known, fun r scene sheet => (law r scene sheet).mpr nofun⟩

/-- The absolute value of a difference in Rust: what is emitted is the difference of a number and an absolute value. -/
theorem difference_loses_grouping :
    let key := "System.Math.Abs"
    let scene : Scene := { Scene.bare .rust with templates := .default }
    let u := numberUse key "\x7bvalue\x7d.abs()" ["value"] [localDifference]
    (expression (.within 3) false (numberCall key ["value"] [localDifference]) scene scene.blank).1.toOption.map (·.text) =
        some "a - b.abs()" ∧
      (u.expand (.within 2) scene scene.blank).1.toOption.map (·.text) = some "a - b.abs()" ∧
      (u.expandGrouped (.within 2) scene scene.blank).1.toOption.map (·.text) = some "(a - b).abs()" := by
  rw [Templates.default_eq]
  decide +kernel

end TemplateUse

end Emit

end Polyglot
