import Polyglot.Prelude
import Polyglot.Proofs.ArgumentConservation
import Polyglot.Proofs.Effects
import Polyglot.Proofs.TemplateText
import Polyglot.Proofs.Writing.Text

/-!
# Compound assignments to properties

A compound assignment to a property reads the property and writes it. Where both are calls of methods, each has the receiver
before it, and where there is a setter, its template may have variables for the receiver and the index. So what is evaluated
once in the document may be evaluated twice in the text.

That is counted with a mark: a character that none of the words of the assignment has. When the text of each part has as many
marks as its effects, the marks of the whole text tell how often each part was rendered (`compound_assignment_effects`).
-/

namespace Polyglot

open List

/-! ## Counting a mark -/

namespace Text

/-- How often a character stands in a text. -/
def tally (c : Char) (s : String) : Nat := s.toList.count c

variable {c : Char}

@[simp] theorem tally_append (s t : String) : tally c (s ++ t) = tally c s + tally c t := by
  rw [tally, String.toList_append, count_append, tally, tally]

theorem tally_eq_zero {s : String} (foreign : c ∉ s.toList) : tally c s = 0 := count_eq_zero.mpr foreign

theorem dropTail_eq_or (tail s : String) : dropTail tail s = s ∨ s = dropTail tail s ++ tail := by
  cases found : afterChars? tail.toList.reverse s.toList.reverse with
  | none => exact .inl (by rw [dropTail, before?, found]; rfl)
  | some rest =>
    right
    rw [dropTail, before?, found]
    have reversed := eq_append_of_afterChars? found
    apply String.toList_injective
    have := congrArg reverse reversed
    simpa using this

theorem tally_dropTail {tail : String} (foreign : c ∉ tail.toList) (s : String) : tally c (dropTail tail s) = tally c s := by
  rcases dropTail_eq_or tail s with same | cut
  · rw [same]
  · conv_rhs => rw [cut, tally_append, tally_eq_zero foreign, Nat.add_zero]

end Text

open Text

variable {c : Char}

/-! ## Templates -/

namespace Template

/-- The names of the variables, as often as they stand. -/
def holes (t : Template) : List String :=
  t.segments.filterMap fun
    | .char _ => none
    | .variable v => some v.name

/-- **A filled template has the marks of its values**, as often as their variables are there, when its own characters are
no marks. -/
theorem tally_render {t : Template} {values : Values} {text : String} (run : t.render values = .ok text)
    (foreign : .char c ∉ t.segments) {weight : String → Nat}
    (given : ∀ token s, (token, s) ∈ values → ∃ v ∈ t.vars, v.token = token ∧ tally c s = weight v.name) :
    tally c text = (t.holes.map weight).sum := by
  obtain ⟨value, bound, whole⟩ := render_eq_ok_iff.mp run
  have filled (v : Variable) (mem : .variable v ∈ t.segments) : (fill value (.variable v)).count c = weight v.name := by
    obtain ⟨u, listed, same, counted⟩ := given v.token (value v) (mem_of_lookup (bound v (mem_vars.mpr mem)))
    obtain rfl := token_inj_of_mem_vars listed (mem_vars.mpr mem) same
    exact counted
  rw [tally, whole, holes]
  generalize t.segments = segments at foreign filled
  induction segments with
  | nil => rfl
  | cons segment segments ih =>
    have rest := ih (fun mem => foreign (mem_cons_of_mem _ mem)) fun v mem => filled v (mem_cons_of_mem _ mem)
    rw [flatMap_cons, count_append, rest]
    cases segment with
    | char d =>
      have other : c ≠ d := fun same => foreign (same ▸ mem_cons_self)
      simp [fill, other.symm]
    | «variable» v => simp [filled v mem_cons_self]

variable {weights : List (String × Nat)}

theorem lookup_eq_none {name : String} (fresh : name ∉ weights.map Prod.fst) : weights.lookup name = none := by
  refine lookup_eq_none_iff.mpr fun row mem => ?_
  have differ : name ≠ row.1 := fun same => fresh (same ▸ mem_map_of_mem mem)
  simpa using differ

/-- A sum over names that have weights, by weight. -/
theorem sum_lookup (names : List String) (distinct : (weights.map Prod.fst).Nodup) :
    (names.map fun name => (weights.lookup name).getD 0).sum = (weights.map fun row => names.count row.1 * row.2).sum := by
  induction weights with
  | nil => simp
  | cons row weights ih =>
    obtain ⟨fresh, distinct⟩ := nodup_cons.mp distinct
    have first (names : List String) : (names.map fun name => ((row :: weights).lookup name).getD 0).sum =
        names.count row.1 * row.2 + (names.map fun name => (weights.lookup name).getD 0).sum := by
      induction names with
      | nil => simp
      | cons name names ih =>
        rw [map_cons, sum_cons, map_cons, sum_cons, count_cons, lookup_cons_ite]
        by_cases same : name = row.1
        · rw [same, if_pos rfl, beq_self_eq_true, if_pos rfl, lookup_eq_none fresh, Nat.succ_mul]
          simp only [Option.getD_some, Option.getD_none]
          omega
        · rw [if_neg same, beq_eq_false_iff_ne.mpr same, if_neg Bool.false_ne_true, Nat.add_zero]
          omega
    rw [first, ih distinct, map_cons, sum_cons]

end Template

/-! ## Words of an assignment -/

/-- Texts that join the parts of an access or of an assignment. -/
def glue : List String :=
  ["(", ")", "()", " ", ".", "->", "::", "this->", "self.", ".borrow_mut().", ".borrow().", ".clone()", "std::string("]

/-- **The words that a compound assignment to a property writes by itself**, besides the texts of its parts. -/
def Scene.assignmentWords (scene : Scene) (s : Symbol) (op : String) : List String :=
  let t := scene.target
  let container := (s.container.map (t.openName scene.world.index .value)).getD t.dynamicType
  glue ++ [t.dialect.this, t.dialect.base, t.dialect.dot, t.dialect.scope,
    t.typeNameOpt scene.world.index .value scene.baseClass, container, t.getter s, t.setter s,
    assignedOperator op, t.operator (assignedOperator op)]

/-- The character is in no word that an assignment writes itself. -/
def Scene.IsMark (scene : Scene) (s : Symbol) (op : String) (c : Char) : Prop :=
  ∀ word ∈ scene.assignmentWords s op, c ∉ word.toList

instance (scene : Scene) (s : Symbol) (op : String) (c : Char) : Decidable (scene.IsMark s op c) :=
  decidableBAll _ _

namespace Scene.IsMark

variable {scene : Scene} {s : Symbol} {op : String}

section

variable (mark : scene.IsMark s op c)
include mark

theorem none_of_glue (word : String) (mem : word ∈ glue) : tally c word = 0 :=
  tally_eq_zero (mark word (mem_append_left _ mem))

theorem none_of_word (word : String) (mem : word ∈ scene.assignmentWords s op) : tally c word = 0 :=
  tally_eq_zero (mark word mem)

theorem tally_operand (x : Rendered) (least : Prec) : tally c (x.operand least) = tally c x.text := by
  rw [Rendered.operand]
  split
  · simp [mark.none_of_glue ("(") (by decide), mark.none_of_glue (")") (by decide)]
  · rfl

theorem tally_borrowed (text : String) : tally c (borrowed text) = tally c text :=
  tally_dropTail (mark _ (mem_append_left _ (by decide))) text

theorem tally_binary (left right : Rendered) : tally c (Rendered.binary scene.target (assignedOperator op) left right).text =
      tally c left.text + tally c right.text := by
  have space := mark.none_of_glue (" ") (by decide)
  have sign := mark.none_of_word (scene.target.operator (assignedOperator op)) (by simp [assignmentWords])
  simp [Rendered.binary, Rendered.compound, mark.tally_operand, space, sign]

end

end Scene.IsMark

namespace Emit

variable {scene : Scene} {here : Option Member} {s : Symbol} {op : String} {r : Emitter} {w : Node → Nat}

/-- Inside a member, a success gives a value with a property, and is still inside of it. -/
abbrev YieldsIn {α : Type} (here : Option Member) (scene : Scene) (P : α → Prop) (x : Emit α) : Prop :=
  YieldsOn Sheet.member (· = here) scene P x

/-! ## Receivers -/

def receiverTally (c : Char) : Receiver → Nat
  | .self | .base => 0
  | .value _ x => tally c x.text

theorem yields_cppBase (mark : scene.IsMark s op c) : YieldsIn here scene (fun lead => tally c lead = 0) cppBase := by
  refine .andThen (.reads fun _ => rfl) ?_
  split
  · next t base =>
    refine (yields_typeName (some t) .value).andThen (.pure ?_)
    rw [tally_append, mark.none_of_glue "::" (by decide), ← base]
    exact mark.none_of_word _ (by simp [Scene.assignmentWords])
  · exact .pure (mark.none_of_glue "this->" (by decide))

theorem yields_rustBorrow (mark : scene.IsMark s op c) (type : Option Ty) (isCall : Bool) :
    YieldsIn here scene (fun joint => tally c joint = 0) (rustBorrow type isCall) := by
  refine YieldsOn.bind (R := fun _ => True) (Keeps.yields keeps_get) fun sheet _ => ?_
  split
  · exact .pure (mark.none_of_glue "." (by decide))
  · dsimp only
    split
    · exact .pure (mark.none_of_glue ".borrow_mut()." (by decide))
    · exact .pure (mark.none_of_glue ".borrow()." (by decide))

theorem yields_receiverText (mark : scene.IsMark s op c) (receiver : Receiver) (isCall : Bool) :
    YieldsIn here scene (fun lead => tally c lead = receiverTally c receiver) (receiverText receiver isCall) := by
  have dot := mark.none_of_word (scene.target.dialect.dot) (by simp [Scene.assignmentWords])
  have this := mark.none_of_word (scene.target.dialect.this) (by simp [Scene.assignmentWords])
  have base := mark.none_of_word (scene.target.dialect.base) (by simp [Scene.assignmentWords])
  have glued (word : String) (mem : word ∈ glue) : tally c word = 0 := mark.none_of_glue word mem
  refine .andThen (.reads fun _ => rfl) (.andThen (.reads fun _ => rfl) ?_)
  split
  · exact .pure (glued "this->" (by decide))
  · exact yields_cppBase mark
  · next type x =>
    refine .pure ?_
    rw [tally_append, mark.tally_operand]
    split
    · rw [glued "." (by decide), receiverTally, Nat.add_zero]
    · rw [glued "->" (by decide), receiverTally, Nat.add_zero]
  · exact .pure (glued "self." (by decide))
  · exact .pure (glued "self." (by decide))
  · next type x _ =>
    refine (yields_rustBorrow mark type isCall).bind fun joint none => .pure ?_
    rw [tally_append, mark.tally_borrowed, mark.tally_operand, none, receiverTally, Nat.add_zero]
  · exact .pure (by rw [tally_append, this, dot, receiverTally])
  · exact .pure (by rw [tally_append, base, dot, receiverTally])
  · exact .pure (by rw [tally_append, mark.tally_operand, dot, receiverTally, Nat.add_zero])

/-- **The expression is rendered with the marks of its effects**: each effect in it is rendered once. -/
def Renders (scene : Scene) (here : Option Member) (c : Char) (w : Node → Nat) (r : Emitter) (e : Option Expr) : Prop :=
  YieldsIn here scene (fun x => tally c x.text = marksOf w e) (r.value e)

variable {args : List (Argument Expr)} {receiver : Option Expr} {t : Template} {weight : String → Nat} {α : Type}

theorem yields_receiverOf (once : Renders scene here c w r receiver) :
    YieldsIn here scene (fun x => receiverTally c x = marksOf w receiver) (receiverOf r receiver) := by
  rcases receiver with _ | ⟨m, form⟩
  · exact .pure rfl
  · unfold receiverOf
    split
    · next missing => cases missing
    · next this =>
      cases this
      exact .pure (marksOf_leaf w m .this rfl rfl).symm
    · next base =>
      cases base
      exact .pure (marksOf_leaf w m .base rfl rfl).symm
    · exact YieldsOn.bind once fun x counted => .pure counted

theorem YieldsOn.mutably {R : α → Prop} {x : Emit α} (h : YieldsIn here scene R x) : YieldsIn here scene R (mutably x) := by
  intro sheet sheet' a start run
  cases result : x scene { sheet with mutating := true } with
  | mk outcome inner =>
    rw [Emit.mutably, result] at run
    cases run
    exact h { sheet with mutating := true } inner a start result

theorem yields_typeReference (t : Option Ty) :
    YieldsIn here scene (· = (t.map (scene.target.openName scene.world.index .value)).getD scene.target.dynamicType)
      (typeReference t) := by
  refine .andThen (.reads fun _ => rfl) ?_
  cases t with
  | none =>
    dsimp only
    split
    · exact (Keeps.yields (keeps_noteFull none)).bind fun _ _ => .pure rfl
    · exact (Keeps.yields (keeps_note none)).bind fun _ _ => .pure rfl
  | some t =>
    dsimp only
    split
    · exact (Keeps.yields (keeps_noteFull t)).bind fun _ _ => .andThen (.reads fun _ => rfl) (.pure rfl)
    · exact (Keeps.yields (keeps_note t)).bind fun _ _ => .andThen (.reads fun _ => rfl) (.pure rfl)

/-- A lead is rendered with the effects of the receiver, unless the type stands there instead. -/
theorem yields_memberLead (mark : scene.IsMark s op c) (property : s.kind = .property) (once : Renders scene here c w r receiver) :
    YieldsIn here scene (fun lead => tally c lead = if s.isStatic then 0 else marksOf w receiver) (memberLead r receiver s) := by
  unfold memberLead
  by_cases static : s.isStatic
  · simp only [static, if_true]
    refine (yields_typeReference s.container).andThen (.andThen (.reads fun _ => rfl) (.pure ?_))
    rw [tally_append, mark.none_of_word _ (by simp [Scene.assignmentWords]),
      mark.none_of_word scene.target.dialect.scope (by simp [Scene.assignmentWords])]
  · simp only [static, property]
    refine (yields_receiverOf once).bind fun x counted => ?_
    exact (yields_receiverText mark x _).mono fun lead same => same.trans counted

theorem exists_accessors {t : Target} (lowered : (t.getter? s).isSome) :
    ∃ getter setter, t.getter? s = some getter ∧ t.setter? s = some setter := by
  cases t with
  | cpp | java | rust => exact ⟨_, _, rfl, rfl⟩
  | csharp | typescript => cases lowered

/-- **A property that is written by a method has its lead written twice** in a compound assignment. -/
theorem yields_propertySet (mark : scene.IsMark s op c) (compound : op ≠ "=") (lowered : (scene.target.getter? s).isSome)
    (lead : String) (value : Rendered) :
    YieldsIn here scene (fun x => tally c x.text = 2 * tally c lead + tally c value.text) (propertySet lead s op value) := by
  obtain ⟨getter, setter, hgetter, hsetter⟩ := exists_accessors lowered
  have readWord : tally c getter = 0 := mark.none_of_word getter (by simp [Scene.assignmentWords, Target.getter, hgetter])
  have writeWord : tally c setter = 0 := mark.none_of_word setter (by simp [Scene.assignmentWords, Target.setter, hsetter])
  have sign := mark.none_of_word (assignedOperator op) (by simp [Scene.assignmentWords])
  have glued (word : String) (mem : word ∈ glue) : tally c word = 0 := mark.none_of_glue word mem
  refine .andThen (.reads fun _ => rfl) ?_
  simp only [hgetter, hsetter, if_neg compound]
  refine .pure ?_
  simp only [Rendered.settled, tally_append, mark.tally_operand, glued "(" (by decide), glued ")" (by decide),
    glued "()" (by decide), glued " " (by decide)]
  omega

/-! ## Filling a setter -/

def HasWeights (c : Char) (weight : String → Nat) (t : Template) (values : Template.Values) : Prop :=
  ∀ token text, (token, text) ∈ values → ∃ v ∈ t.vars, v.token = token ∧ tally c text = weight v.name

theorem HasWeights.append {values more : Template.Values} (h : HasWeights c weight t values) (h' : HasWeights c weight t more) :
    HasWeights c weight t (values ++ more) :=
  fun token text mem => (mem_append.mp mem).elim (h token text) (h' token text)

theorem HasWeights.flatten {groups : List Template.Values} (h : ∀ values ∈ groups, HasWeights c weight t values) :
    HasWeights c weight t groups.flatten := by
  intro token text mem
  obtain ⟨values, inside, mem⟩ := mem_flatten.mp mem
  exact h values inside token text mem

variable {weight : String → Nat} {u : TemplateUse}

theorem yields_valuesFor {name : String} {value : Variable → Emit String}
    (each : ∀ v ∈ u.template.vars, v.name = name → YieldsIn here scene (fun text => tally c text = weight name) (value v)) :
    YieldsIn here scene (HasWeights c weight u.template) (u.valuesFor name value) := by
  have rows : YieldsIn here scene
      (Forall₂ (fun (v : Variable) (row : String × String) => row.1 = v.token ∧ tally c row.2 = weight name)
        (u.template.vars.filter (·.name = name))) (u.valuesFor name value) := by
    refine YieldsOn.mapM fun v mem => ?_
    obtain ⟨listed, named⟩ := mem_filter.mp mem
    exact (each v listed (of_decide_eq_true named)).bind fun text counted => .pure ⟨rfl, counted⟩
  refine rows.mono fun values pairs token text mem => ?_
  obtain ⟨v, inside, rfl, counted⟩ := exists_mem_of_forall₂ pairs mem
  obtain ⟨listed, named⟩ := mem_filter.mp inside
  exact ⟨v, listed, rfl, by rw [counted, of_decide_eq_true named]⟩

theorem yields_groups {β : Type} {l : List β} {f : β → Emit Template.Values}
    (each : ∀ b ∈ l, YieldsIn here scene (HasWeights c weight u.template) (f b)) :
    YieldsIn here scene (HasWeights c weight u.template) (do pure (← l.mapM f).flatten) := by
  refine (YieldsOn.mapM each).bind fun groups all => .pure (.flatten fun values mem => ?_)
  obtain ⟨_, -, weighed⟩ := exists_mem_of_forall₂ all mem
  exact weighed

theorem yields_thisValues (mark : scene.IsMark s op c) (none : u.receiver = none → weight "this" = 0)
    (given : u.receiver.isSome → u.template.uses "this" → tally c u.receiverText.text = weight "this") :
    YieldsIn here scene (HasWeights c weight u.template) u.thisValues := by
  unfold TemplateUse.thisValues
  split
  · next e receiver =>
    refine yields_valuesFor fun v listed named => .pure ?_
    have used : u.template.uses "this" := any_eq_true.mpr ⟨v, listed, by simpa using named⟩
    rw [mark.tally_operand, given (by rw [receiver]; rfl) used]
  · next missing =>
    split
    · exact .pure fun _ _ mem => by cases mem
    · refine .andThen (.reads fun _ => rfl) ?_
      refine (yields_receiverText mark .self false).bind fun lead counted => ?_
      refine yields_valuesFor fun v _ _ => .pure ?_
      have foreign : c ∉ scene.target.dialect.dot.toList := mark _ (by simp [Scene.assignmentWords])
      rw [tally_dropTail foreign, counted, none missing, receiverTally]

/-- What is bound to the parameters of a setter inside a member. -/
def boundsOf (scene : Scene) (here : Option Member) (s : Symbol) (receiver : Option Expr) (args : List (Argument Expr))
    (place : Position) : List (Bound (Option Expr)) :=
  if s.parameters.isEmpty then []
  else (bind scene.world.hierarchy staticOf s (receiver.map some) (optional args) (.inside here place)).toOption.getD []

theorem yields_ofExcept {x : Except Fault α} : YieldsIn here scene (fun a => x = .ok a) (ofExcept x) := by
  cases x with
  | error f => exact fun _ _ _ _ run => by cases run
  | ok a => exact .pure rfl

theorem yields_bound {place : Position} (some : ¬ s.parameters.isEmpty) :
    YieldsIn here scene (· = boundsOf scene here s receiver args place) (bound s (receiver.map Option.some) (optional args) place) := by
  rintro sheet sheet' bounds rfl run
  obtain ⟨bound, kept⟩ := (yields_ofExcept : YieldsIn sheet.member scene _ _) sheet sheet' bounds rfl run
  rw [boundsOf, if_neg some, bound]
  exact ⟨rfl, kept⟩

theorem yields_parameterValues (same : u.args = optional args)
    (each : ∀ b ∈ boundsOf scene here u.symbol u.receiver args u.node.place, ∀ isRaw,
      YieldsIn here scene (fun text => tally c text = weight b.parameter.name) (argument r isRaw b)) :
    YieldsIn here scene (HasWeights c weight u.template) (u.parameterValues r) := by
  unfold TemplateUse.parameterValues
  split
  · exact .pure fun _ _ mem => by cases mem
  · next some =>
    rw [same]
    refine (yields_bound some).andThen (yields_groups fun b mem => ?_)
    exact yields_valuesFor fun v _ _ => each b mem _

theorem yields_typeValues (each : ∀ p ∈ typeArguments u.node u.symbol u.receiver,
      weight p.1 = 0 ∧ c ∉ (scene.target.argumentName scene.world.index p.2).toList) :
    YieldsIn here scene (HasWeights c weight u.template) u.typeValues := by
  refine yields_groups fun name _ => ?_
  split
  · next t found =>
    obtain ⟨none, foreign⟩ := each (name, t) (mem_of_lookup found)
    refine yields_valuesFor fun v _ _ => ?_
    refine (Keeps.yields (keeps_noteFull (some t))).bind fun _ _ => ?_
    refine .andThen (.reads fun _ => rfl) (.andThen (.reads fun _ => rfl) (.pure ?_))
    rw [none, tally_eq_zero foreign]
  · exact .pure fun _ _ mem => by cases mem

/-- The use of a setter, when the template and the types that it names have no marks, its names are different, and each
argument is rendered with the marks of its effects. -/
structure IsSetterUse (scene : Scene) (here : Option Member) (c : Char) (w : Node → Nat) (r : Emitter) (e : Expr)
    (s : Symbol) (receiver : Option Expr) (args : List (Argument Expr)) (t : Template) : Prop where
  chars : .char c ∉ t.segments
  names : ("value" :: "this" :: s.parameters.map (·.name)).Nodup
  types : ∀ p ∈ typeArguments e s receiver, p.1 ∉ "value" :: "this" :: s.parameters.map (·.name) ∧
    c ∉ (scene.target.argumentName scene.world.index p.2).toList
  arguments : ∀ b ∈ boundsOf scene here s receiver args e.place, ∀ isRaw,
    YieldsIn here scene (fun text => tally c text = marksOfAll w b.args) (argument r isRaw b)

variable {e : Expr} {receiver : Option Expr} {args : List (Argument Expr)} {t : Template}

theorem boundsOf_parameters (scene : Scene) (here : Option Member) (s : Symbol) (receiver : Option Expr) (args : List (Argument Expr))
    (place : Position) : ((boundsOf scene here s receiver args place).map (·.parameter)).Sublist s.parameters := by
  unfold boundsOf
  split
  · exact nil_sublist _
  · cases run : bind scene.world.hierarchy staticOf s (receiver.map some) (optional args) (.inside here place) with
    | error f => exact nil_sublist _
    | ok bounds =>
      have all := (Binding.bounds_of_bind run).1
      exact all ▸ Sublist.refl _

/-- How often the parts of an assignment are rendered by a setter, each with its marks. -/
def setterMarks (w : Node → Nat) (t : Template) (receiver : Option Expr) (bounds : List (Bound (Option Expr)))
    (assigned : Nat) : Nat :=
  t.holes.count "value" * assigned + t.holes.count "this" * marksOf w receiver +
    (bounds.map fun b => t.holes.count b.parameter.name * marksOfAll w b.args).sum

/-- **A filled setter has the marks of its parts**, as often as it has a variable for them. -/
theorem IsSetterUse.yields_expand (use : IsSetterUse scene here c w r e s receiver args t) (mark : scene.IsMark s op c)
    {value receiverText : Rendered} (given : receiver.isSome → t.uses "this" → tally c receiverText.text = marksOf w receiver) :
    YieldsIn here scene (fun x => tally c x.text =
        setterMarks w t receiver (boundsOf scene here s receiver args e.place) (tally c value.text)) (TemplateUse.expand r {
        template := t, node := e, symbol := s, receiver, receiverText, args := optional args, assigned := some value }) := by
  let u : TemplateUse :=
    { template := t, node := e, symbol := s, receiver, receiverText, args := optional args, assigned := some value }
  let bounds := boundsOf scene here s receiver args e.place
  let weights : List (String × Nat) :=
    ("value", tally c value.text) :: ("this", marksOf w receiver) ::
      bounds.map fun b => (b.parameter.name, marksOfAll w b.args)
  let weight (name : String) : Nat := (weights.lookup name).getD 0
  have within : (weights.map Prod.fst).Sublist ("value" :: "this" :: s.parameters.map (·.name)) := by
    have named := (boundsOf_parameters scene here s receiver args e.place).map (·.name)
    simpa [weights, Function.comp_def] using named
  have distinct : (weights.map Prod.fst).Nodup := use.names.sublist within
  have row {name : String} {n : Nat} (mem : (name, n) ∈ weights) : weight name = n := by
    simp only [weight, lookup_of_mem distinct mem, Option.getD_some]
  have ofThis : weight "this" = marksOf w receiver := row (by simp [weights])
  unfold TemplateUse.expand
  refine YieldsOn.bind (R := HasWeights c weight t) (yields_valuesFor (u := u) fun v _ _ => .pure ?_) fun values hvalues => ?_
  · exact (mark.tally_operand _ _).trans (row (by simp [weights])).symm
  refine YieldsOn.bind (R := HasWeights c weight t) (yields_thisValues (u := u) mark (fun missing => ?_) fun some used => ?_)
    fun this hthis => ?_
  · rw [ofThis, show receiver = none from missing]
    rfl
  · exact (given some used).trans ofThis.symm
  refine YieldsOn.bind (R := HasWeights c weight t) (yields_parameterValues (u := u) rfl fun b mem isRaw => ?_)
    fun parameters hparameters => ?_
  · exact (use.arguments b mem isRaw).mono fun text counted =>
      counted.trans (row (mem_cons_of_mem _ (mem_cons_of_mem _ (mem_map_of_mem mem)))).symm
  refine YieldsOn.bind (R := HasWeights c weight t) (yields_typeValues (u := u) fun p mem => ⟨?_, (use.types p mem).2⟩)
    fun types htypes => ?_
  · have fresh : p.1 ∉ weights.map Prod.fst := fun old => (use.types p mem).1 (within.subset old)
    simp only [weight, Template.lookup_eq_none fresh, Option.getD_none]
  refine yields_ofExcept.bind fun text filled => .pure ?_
  have all := ((hvalues.append hthis).append hparameters).append htypes
  refine (Template.tally_render filled use.chars fun token s mem => all token s (mem_reverse.mp mem)).trans ?_
  rw [Template.sum_lookup _ distinct, setterMarks]
  simp only [weights, bounds, map_cons, sum_cons, map_map, Function.comp_def, Nat.add_assoc]

/-! ## Assignments -/

theorem yields_templateReceiver (mark : scene.IsMark s op c) (e : Expr) (x : Rendered) :
    YieldsIn here scene (fun y => tally c y.text = tally c x.text) (templateReceiver e x) := by
  refine .andThen (.reads fun _ => rfl) ?_
  split
  · split
    · refine .pure ?_
      split
      · simp [Rendered.postfixed, mark.none_of_glue "std::string(" (by decide), mark.none_of_glue ")" (by decide)]
      · rfl
    · exact .pure rfl
  · refine .pure ?_
    split
    · rfl
    · exact mark.tally_borrowed x.text
  · exact .pure rfl

theorem yields_usedReceiver (mark : scene.IsMark s op c) (once : Renders scene here c w r receiver) (t : Template) :
    YieldsIn here scene (fun x => receiver.isSome → t.uses "this" → tally c x.text = marksOf w receiver)
      (usedReceiver r t receiver) := by
  unfold usedReceiver
  split
  · next e =>
    split
    · refine YieldsOn.bind once fun x counted => ?_
      exact (yields_templateReceiver mark e x).mono fun y same _ _ => same.trans counted
    · next unused => exact .pure fun _ used => absurd used unused
  · exact .pure fun some => by cases some

/-- The template by which a property is written. -/
def setter? (scene : Scene) (s : Symbol) : Option Template := scene.templates.find? (s.key ++ ".set") scene.target.name

variable {m : Mark}

/-- Without a setter, the methods of a property are called on one receiver each. -/
theorem yields_assignProperty_member (mark : scene.IsMark s op c) (property : s.kind = .property) (compound : op ≠ "=")
    (lowered : (scene.target.getter? s).isSome) (plain : setter? scene s = none) (once : Renders scene here c w r receiver)
    (value : Rendered) :
    YieldsIn here scene (fun x => tally c x.text = (if s.isStatic then 0 else 2 * marksOf w receiver) + tally c value.text)
      (assignProperty r e (.node m (.member receiver)) s op value) := by
  refine .andThen (.reads fun _ => rfl) ?_
  rw [show scene.templates.find? (s.key ++ ".set") scene.target.name = none from plain]
  refine (yields_memberLead mark property once).mutably.bind fun lead counted => ?_
  refine (yields_propertySet mark compound lowered lead value).mono fun x total => ?_
  rw [total, counted]
  split <;> rfl

/-- An index without a setter is not assigned to, where there are no properties. -/
theorem yields_assignProperty_index (lowered : (scene.target.getter? s).isSome) (plain : setter? scene s = none)
    (value : Rendered) : YieldsIn here scene (fun _ => False) (assignProperty r e (.node m (.index receiver args)) s op value) := by
  refine .andThen (.reads fun _ => rfl) ?_
  rw [show scene.templates.find? (s.key ++ ".set") scene.target.name = none from plain]
  refine .andThen (.reads fun _ => rfl) ?_
  have none : scene.target.dialect.hasIndexers = false := by
    cases h : scene.target <;> rw [h] at lowered <;> first | rfl | cases lowered
  rw [none]
  exact fun _ _ _ _ run => by cases run

variable {right : Option Expr} {left : Expr}

/-- **A setter is given the receiver, the arguments and the value**, which has the property's old value in it. -/
theorem yields_assignProperty_setter (mark : scene.IsMark s op c) (compound : op ≠ "=")
    (found : setter? scene s = some t) (on : assignedOn left = (receiver, args))
    (use : IsSetterUse scene here c w r e s receiver args t) (once : Renders scene here c w r receiver)
    (read : Renders scene here c w r (some left)) (value : Rendered) :
    YieldsIn here scene (fun x => tally c x.text = setterMarks w t receiver (boundsOf scene here s receiver args e.place)
        (marksOf w (some left) + tally c value.text)) (assignProperty r e left s op value) := by
  unfold assignProperty
  rw [on]
  refine .andThen (.reads fun _ => rfl) ?_
  rw [show scene.templates.find? (s.key ++ ".set") scene.target.name = some t from found]
  simp only [if_neg compound]
  refine .andThen (.reads fun _ => rfl) (YieldsOn.bind read fun old counted => .andThen (.pure rfl) ?_)
  refine (yields_usedReceiver mark once t).bind fun receiverText given => ?_
  refine (use.yields_expand mark given).bind fun x filled => .pure ?_
  rw [filled, mark.tally_binary, counted]

/-- A compound assignment to a property renders the value, and then assigns it. -/
theorem yields_assignment {R : Rendered → Prop} (means : left.symbol = some s) (property : s.kind = .property)
    (once : Renders scene here c w r right) (next : ∀ value, tally c value.text = marksOf w right →
      YieldsIn here scene R (assignProperty r e left s (assignmentOperator e) value)) :
    YieldsIn here scene R (assignment r e (some left) right) := by
  have named : symbolOf (some left) = some s := means
  refine .andThen (.reads fun _ => rfl) ?_
  simp only [named, Option.any_some, property, reduceCtorEq, decide_false, decide_true, Bool.false_and, Bool.not_true, Bool.and_false,
    Bool.or_false]
  refine YieldsOn.bind once fun value counted => ?_
  simp only [named, property]
  exact next value counted

/-- The marks of the parts of an assignment to a property: the receiver, the arguments of an index, and the value. -/
def partMarks (w : Node → Nat) (receiver : Option Expr) (args : List (Argument Expr)) (right : Option Expr) : Nat :=
  marksOf w receiver + marksOfAll w (args.map fun a => some a.value) + marksOf w right

theorem marksOf_assigned (w : Node → Nat)
    (shape : left.form = .member receiver ∧ args = [] ∨ left.form = .index receiver args) :
    marksOf w (some left) = marksOf w receiver + marksOfAll w (args.map fun a => some a.value) := by
  obtain ⟨m, form⟩ := left
  rcases shape with ⟨rfl, rfl⟩ | rfl
  · exact marksOf_member w m receiver
  · exact marksOf_index w m receiver args

/-- Nothing is rendered more often than once exactly when each part that stands in a variable of its own, besides the
value, has no marks. -/
theorem setterMarks_eq_iff (single : t.holes.count "value" = 1) {bounds : List (Bound (Option Expr))} {n : Nat} :
    setterMarks w t receiver bounds n = n ↔ t.holes.count "this" * marksOf w receiver = 0 ∧
        ∀ b ∈ bounds, t.holes.count b.parameter.name * marksOfAll w b.args = 0 := by
  rw [setterMarks, single, Nat.one_mul, Nat.add_assoc, Nat.add_eq_left, Nat.add_eq_zero_iff,
    List.sum_eq_zero_iff_forall_eq_nat, forall_mem_map]

section

variable (shape : left.form = .member receiver ∧ args = [] ∨ left.form = .index receiver args) (means : left.symbol = some s)
  (property : s.kind = .property) (compound : assignmentOperator e ≠ "=") (mark : scene.IsMark s (assignmentOperator e) c)
  (receiverOnce : Renders scene here c w r receiver) (valueOnce : Renders scene here c w r right)
include shape means property compound mark receiverOnce valueOnce

/-- Where a property has two methods instead, both are called on the receiver. -/
theorem yields_assignment_accessors (plain : setter? scene s = none) (lowered : (scene.target.getter? s).isSome) :
    YieldsIn here scene (fun x => args = [] ∧ tally c x.text = (if s.isStatic then 0 else 2 * marksOf w receiver) + marksOf w right)
      (assignment r e (some left) right) := by
  refine yields_assignment means property valueOnce fun value counted => ?_
  obtain ⟨m, form⟩ := left
  rcases shape with ⟨rfl, rfl⟩ | rfl
  · rw [← counted]
    exact (yields_assignProperty_member mark property compound lowered plain receiverOnce value).mono fun x total => ⟨rfl, total⟩
  · exact (yields_assignProperty_index lowered plain value).mono fun x absurd => absurd.elim

/-- Where a property has a setter, the receiver and the arguments are rendered for the old value, and again for the
variables of the setter. -/
theorem yields_assignment_setter (found : setter? scene s = some t) (use : IsSetterUse scene here c w r e s receiver args t)
    (read : Renders scene here c w r (some left)) :
    YieldsIn here scene (fun x => tally c x.text =
        setterMarks w t receiver (boundsOf scene here s receiver args e.place) (partMarks w receiver args right))
      (assignment r e (some left) right) := by
  have on : assignedOn left = (receiver, args) := by
    rw [assignedOn]
    rcases shape with ⟨form, rfl⟩ | form <;> rw [form]
  refine yields_assignment means property valueOnce fun value counted => ?_
  rw [partMarks, ← marksOf_assigned w shape, ← counted]
  exact yields_assignProperty_setter mark compound found on use receiverOnce read value

end

/-- **How often a compound assignment to a property renders the effects of its parts.** Without a setter, in a target where a
property is a pair of methods, the receiver is rendered twice and the value once; so each effect is rendered once exactly when
the receiver has none, as a simple operand has. With a setter, the value and what is read before are rendered as often as the
setter has a variable for the value, and the receiver and the arguments once more for each variable of their own. -/
theorem compound_assignment_effects {left : Expr} {right : Option Expr} {isStatement : Bool} {x : Rendered} {sheet sheet' : Sheet}
    (assigns : e.form = .assign (some left) right)
    (shape : left.form = .member receiver ∧ args = [] ∨ left.form = .index receiver args)
    (means : left.symbol = some s) (property : s.kind = .property) (compound : assignmentOperator e ≠ "=")
    (mark : scene.IsMark s (assignmentOperator e) c) (receiverOnce : Renders scene sheet.member c w r receiver)
    (valueOnce : Renders scene sheet.member c w r right) (run : expression r isStatement e scene sheet = (.ok x, sheet')) :
    (setter? scene s = none → (scene.target.getter? s).isSome →
      tally c x.text = (if s.isStatic then 0 else 2 * marksOf w receiver) + marksOf w right ∧
        (tally c x.text = partMarks w receiver args right ↔ marksOf w receiver = 0) ∧
        (simpleOperand receiver = .ok true → tally c x.text = partMarks w receiver args right)) ∧
    ∀ t, setter? scene s = some t → IsSetterUse scene sheet.member c w r e s receiver args t → Renders scene sheet.member c w r (some left) →
      tally c x.text = setterMarks w t receiver (boundsOf scene sheet.member s receiver args e.place) (partMarks w receiver args right) ∧
        (t.holes.count "value" = 1 →
          (tally c x.text = partMarks w receiver args right ↔
            t.holes.count "this" * marksOf w receiver = 0 ∧
              ∀ b ∈ boundsOf scene sheet.member s receiver args e.place, t.holes.count b.parameter.name * marksOfAll w b.args = 0)) := by
  have run : assignment r e (some left) right scene sheet = (.ok x, sheet') := by
    rw [expression, assigns] at run
    exact run
  refine ⟨fun plain lowered => ?_, fun t found use read => ?_⟩
  · obtain ⟨⟨bare, total⟩, -⟩ := yields_assignment_accessors shape means property compound mark receiverOnce valueOnce plain
      lowered sheet sheet' x rfl run
    have once : tally c x.text = partMarks w receiver args right ↔ marksOf w receiver = 0 := by
      have parts : partMarks w receiver args right = marksOf w receiver + marksOf w right := by
        rw [partMarks, bare]
        rfl
      rw [total, parts]
      split <;> omega
    exact ⟨total, once, fun simple => once.mpr (marksOf_of_simpleOperand w simple)⟩
  · have total := (yields_assignment_setter shape means property compound mark receiverOnce valueOnce found use read
      sheet sheet' x rfl run).1
    exact ⟨total, fun single => total ▸ setterMarks_eq_iff single⟩

def countProperty : Symbol := { kind := .property, name := "Count", type := some .int }

def nextCall : Expr :=
  let next : Symbol := { kind := .method, name := "Next", type := some .int }
  .node { place := {}, symbol := some next, static := some .int } (.call (.node { place := {} } .identifier) [] [])

def localCell : Expr := .node { place := {}, symbol := some { kind := .local, name := "cell" } } .identifier

def addedNext : Expr :=
  .node { place := {}, op := "+=" } (.assign
    (some (.node { place := {}, symbol := some countProperty } (.member (some localCell)))) (some nextCall))

/-- The receiver is a local, so the one call in the assignment is rendered once, although the local is rendered twice. -/
theorem compound_assignment_once : ∃ x sheet,
    expression (.within 2) true addedNext (.bare .cpp) (Scene.bare .cpp).blank = (.ok x, sheet) ∧
    x.text = "cell->set_Count(cell->get_Count() + this->Next())" ∧ tally 'N' x.text = 1 := by
  have receiverOnce : Renders (.bare .cpp) none 'N' (fun _ => 1) (.within 2) (some localCell) := by
    intro sheet sheet' x _ run
    cases run
    exact ⟨by decide +kernel, rfl⟩
  have valueOnce : Renders (.bare .cpp) none 'N' (fun _ => 1) (.within 2) (some nextCall) := by
    intro sheet sheet' x _ run
    cases run
    exact ⟨by decide +kernel, rfl⟩
  obtain ⟨x, sheet, run, text⟩ : ∃ x sheet,
      expression (.within 2) true addedNext (.bare .cpp) (Scene.bare .cpp).blank = (.ok x, sheet) ∧
      x.text = "cell->set_Count(cell->get_Count() + this->Next())" := ⟨_, _, rfl, rfl⟩
  have counted := (compound_assignment_effects rfl (.inl ⟨rfl, rfl⟩) rfl rfl (by decide) (by decide +kernel) receiverOnce
    valueOnce run).1 rfl rfl
  exact ⟨x, sheet, run, text, counted.2.2 rfl⟩

end Emit

namespace Compilation

def withoutProperties : Options := { targets := [.cpp, .java, .rust], templates := {} }

/-- A class whose objects count: `Next().Count += 1`, where `Next` makes a new object. -/
def counterDraft : TypeDraft :=
  { kind := "class", name := "N.Counter"
    members := [some { kind := "property", name := "Count", type := "int" },
      some { kind := "method", name := "Next", type := "N.Counter"
             body := some { kind := "return", value := some { kind := "new", type := "N.Counter" } } },
      some { kind := "method", name := "Bump"
             body := some { kind := "assign", op := "+="
                            left := some { kind := "member", name := "Count"
                                           target := some { kind := "invocation"
                                                            target := some { kind := "identifier", name := "Next" } } }
                            right := some { kind := "literal", literal := some (.scalar ⟨1, 1⟩ .int "1") } } }] }

def counterFiles : List String :=
  ["#pragma once\n\n#include \"phase/runtime.h\"\n\nnamespace N \x7b\n\nclass Counter : public virtual phase::Object \x7b\n" ++
      "    std::int32_t get_Count() \x7b return count_; \x7d\n    void set_Count(std::int32_t value) \x7b count_ = value; \x7d\n" ++
      "    std::int32_t count_ = 0;\n\n    std::shared_ptr<N::Counter> Next();\n\n    void Bump();\npublic:\n" ++
      "    virtual ~Counter() = default;\n\x7d;\n\n\x7d // namespace N\n",
    "#include \"N/Counter.h\"\n\nnamespace N \x7b\n\nstd::shared_ptr<N::Counter> Counter::Next() \x7b\n" ++
      "    return std::make_shared<N::Counter>();\n\x7d\n\nvoid Counter::Bump() \x7b\n" ++
      "    this->Next()->set_Count(this->Next()->get_Count() + 1);\n\x7d\n\n\x7d // namespace N\n",
    "package n;\n\npublic class Counter \x7b\n    private int count;\n\n    private int getCount() \x7b\n        return count;\n" ++
      "    \x7d\n\n    private void setCount(int value) \x7b\n        this.count = value;\n    \x7d\n\n" ++
      "    private Counter next() \x7b\n        return new Counter();\n    \x7d\n\n    private void bump() \x7b\n" ++
      "        this.next().setCount(this.next().getCount() + 1);\n    \x7d\n\x7d\n",
    "#![allow(non_snake_case, unused_imports, unused_mut, dead_code)]\n\nuse std::cell::RefCell;\nuse std::rc::\x7bRc, Weak\x7d;\n\n" ++
      "#[derive(Default)]\npub struct Counter \x7b\n    count_: i32,\n\x7d\n\nimpl Counter \x7b\n" ++
      "    pub fn new() -> Rc<RefCell<Self>> \x7b\n        let this = Rc::new(RefCell::new(Counter \x7b\n            count_: 0,\n" ++
      "        \x7d));\n        this\n    \x7d\n\n    fn get_count(&mut self) -> i32 \x7b\n        self.count_\n    \x7d\n\n" ++
      "    fn set_count(&mut self, mut value: i32) \x7b\n        self.count_ = value;\n    \x7d\n\n" ++
      "    fn next(&mut self) -> Rc<RefCell<Counter>> \x7b\n        return Counter::new();\n    \x7d\n\n    fn bump(&mut self) \x7b\n" ++
      "        self.next().borrow_mut().set_count(self.next().borrow_mut().get_count() + 1);\n    \x7d\n\x7d\n"]

/-- **Not every effect is rendered once**: the assignment has one call, which makes the receiver of the property, and all
targets without properties write it twice. -/
theorem compound_assignment_twice : ∃ c d, ofDocument Prelude.types "" { types := [some counterDraft] } = .ok c ∧
    d ∈ c.types ∧
    ((d.members.drop 2).flatMap Member.trees).flatMap (fun n => (n.preorder.filter Node.isEffect).map Node.kind) =
      [.assign, .invocation] ∧
    ([.cpp, .java, .rust].flatMap fun t => (emitUnit withoutProperties c t d).outputs.map (·.text)) = counterFiles :=
  exists_mem_ok_of_decide (by decide +kernel)

end Compilation

end Polyglot
