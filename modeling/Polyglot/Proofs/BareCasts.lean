import Polyglot.Proofs.Operators.Faithful
import Polyglot.Proofs.PathParts
import Polyglot.Proofs.Writing.Basic

/-!
# Casts in front of `<`

Rust reads `<` behind the name of a type as the start of its arguments. A cast is written as `x as T` and binds tighter than
every binary operator, so it stands without parentheses to the left of `<` and `<<`, and so does an operator whose right
operand ends in a cast.
-/

namespace Polyglot

open List Text

namespace Text

/-- A word in the name of a type: not an operator, and nothing ends in it. -/
def isTypeWord (w : String) : Bool :=
  w ∉ Target.rust.levels.map (·.1) && w.toList.all (· ∉ [')', ']', '\x7d', '"', '\''])

/-- **A text ends in a bare cast**: behind an `as` there are only words of a type. -/
def EndsInCast (text : String) : Prop :=
  ∃ lead type, split ' ' text = lead ++ "as" :: type ∧ type ≠ [] ∧ type.all isTypeWord = true

/-- The name of a type consists of its words. -/
def isTypeName (name : String) : Bool := (split ' ' name).all isTypeWord

example : isTypeName "Rc<RefCell<dyn Shape>>" = true := by decide +kernel

theorem not_endsInCast_closed (text : String) : ¬ EndsInCast (text ++ ")") := by
  rintro ⟨lead, type, eq, named, free⟩
  have close : ' ' ∉ ")".toList := by decide
  obtain ⟨before, last, -, ends⟩ := split_append_tail text close
  have ends : (lead ++ "as" :: type).getLast? = some (last ++ ")") := by
    rw [← eq, ends, getLast?_concat]
  have mem : last ++ ")" ∈ type := by
    rw [getLast?_append_of_ne_nil _ (cons_ne_nil _ _), getLast?_cons_of_ne_nil named] at ends
    exact mem_of_getLast? ends
  simpa [isTypeWord] using all_eq_true.mp free _ mem

variable {a b op type : String}

theorem split_between (a b : String) (single : split ' ' op = [op]) :
    split ' ' (a ++ " " ++ op ++ " " ++ b) = split ' ' a ++ op :: split ' ' b := by
  rw [split_append_sep (a := a ++ " " ++ op) (b := b) (by simp), split_append_sep (a := a) (b := op) (by simp), single,
    append_assoc]
  rfl

theorem endsInCast_cast (free : isTypeName type = true) : EndsInCast (a ++ " as " ++ type) := by
  refine ⟨split ' ' a, split ' ' type, ?_, split_ne_nil _ _, free⟩
  rw [← split_between a type (by decide +kernel), show " as " = " " ++ "as" ++ " " from rfl, ← String.append_assoc,
    ← String.append_assoc]

theorem endsInCast_binary (known : op ∈ Target.rust.levels.map (·.1)) :
    EndsInCast (a ++ " " ++ op ++ " " ++ b) ↔ EndsInCast b := by
  have word : ∀ op ∈ Target.rust.levels.map (·.1), split ' ' op = [op] ∧ op ≠ "as" := by decide +kernel
  obtain ⟨single, other⟩ := word op known
  unfold EndsInCast
  rw [split_between a b single]
  constructor
  · rintro ⟨lead, type, eq, named, free⟩
    -- The operator is neither `as` nor a word of a type, so it stands in the lead.
    rcases append_eq_append_iff.mp eq with ⟨rest, -, eq'⟩ | ⟨rest, -, eq'⟩
    · cases rest with
      | nil => exact absurd (List.cons.inj eq').1 other
      | cons w rest => exact ⟨rest, type, (List.cons.inj eq').2, named, free⟩
    · cases rest with
      | nil => exact absurd (List.cons.inj eq').1.symm other
      | cons w rest =>
        have mem : op ∈ type := (List.cons.inj eq').2 ▸ mem_append_right _ mem_cons_self
        exact absurd known (of_decide_eq_true (Bool.and_eq_true_iff.mp (all_eq_true.mp free _ mem)).1)
  · rintro ⟨lead, type, eq, named, free⟩
    exact ⟨split ' ' a ++ op :: lead, type, by rw [eq, append_assoc]; rfl, named, free⟩

end Text

open Operators Emit

/-- An operator expression with casts. -/
inductive CastTree where
  /-- Any other expression, and what it is rendered as. -/
  | leaf (e : Expr) (x : Rendered)
  | cast (mark : Mark) (type : Ty) (operand : CastTree)
  | binary (mark : Mark) (left right : CastTree)

namespace CastTree

/-- The tree without its renderings. -/
def expr : CastTree → Expr
  | leaf e _ => e
  | cast m type t => .node m (.typed .cast (some type) (some t.expr))
  | binary m l r => .node m (.binary (some l.expr) (some r.expr))

/-- The name that a cast of a kind has behind its `as`: references are cast to what holds them. -/
def castName (idx : TypeIndex) (kind : CastKind) (type : Option Ty) : String :=
  if kind = .upcast then Target.rust.ownedName idx type else Target.rust.typeNameOpt idx .value type

/-- What is written for a cast. -/
def written (idx : TypeIndex) (kind : CastKind) (type : Option Ty) (x : Rendered) : Rendered :=
  ⟨x.operand Prec.unary ++ " as " ++ castName idx kind type, .settled, Prec.cast⟩

/-- Programs ask for the casts that are also made unasked: up to a supertype, and between values. -/
def kindOf (type : Ty) : CastKind := if type.isReferenceType then .upcast else .numeric

/-- What the tree is rendered as in Rust where a value is wanted. -/
def rendered (idx : TypeIndex) : CastTree → Rendered
  | leaf e x => Target.rust.convert idx e.static e.converted x
  | cast _ type t => written idx (kindOf type) (some type) (t.rendered idx)
  | binary m l r =>
    Target.rust.convert idx m.static m.converted (.binary .rust m.op (l.rendered idx) (r.rendered idx))

/-- The conversion of an expression is a cast. -/
def IsConverted (static converted : Option Ty) : Prop := CastKind.decide static converted ∈ [.numeric, .upcast]

/-- **The tree ends in a cast**: it is one, or it is converted by one, or it is not converted at all, its right operand has no
parentheses and ends in a cast. -/
def EndsBare (idx : TypeIndex) : CastTree → Prop
  | leaf e x => x.mode ≠ .settled ∧ IsConverted e.static e.converted
  | cast _ _ _ => True
  | binary m _ r => IsConverted m.static m.converted ∨ CastKind.decide m.static m.converted = .none ∧
      Target.rust.precedence m.op < (r.rendered idx).prec ∧ r.EndsBare idx

/-- Where a reference is shown as a supertype, Rust allows it, and the supertype has a name. -/
def Shows (idx : TypeIndex) (static converted : Option Ty) : Prop := CastKind.decide static converted = .upcast →
  (∀ mode, Target.rust.refusedCast? mode static converted = none) ∧ isTypeName (Target.rust.ownedName idx converted) = true

/-- **A cast is written as one**: it takes nothing out of an object, makes no number an enumeration and is not to a text or a
delegate; a reference is cast up to a supertype that Rust allows. Its name is one of a type. -/
structure IsCast (scene : Scene) (source : Option Ty) (type : Ty) : Prop where
  typed : (source.any (·.isUntyped) && !type.isUntyped) = false
  valued : (type.isDecl .enumDecl && source.any (·.isPrimitive)) = false
  spelled : (type.isString || type.isDecl .delegateDecl) = false
  up : type.isReferenceType = true → ∃ s, source = some s ∧ scene.world.hierarchy.assignable s type = true ∧
    (if s.same type then none else Target.refusedUpcast? s type) = none
  named : isTypeName (castName scene.world.index (kindOf type) (some type)) = true

/-- Conversions and casts are such that Rust has them, the operators are those of Rust, and the leaves are rendered: as texts
that bind tighter than a cast and do not end in one, or that are put in parentheses by every operator. -/
def IsProper (scene : Scene) : CastTree → Prop
  | leaf e x => Shows scene.world.index e.static e.converted ∧
      (∀ levels ≥ e.depth, Emits ((Emitter.within levels).bare e) scene x) ∧
      (x.prec < Prec.logicalOr ∨ Prec.unary ≤ x.prec ∧ ¬ EndsInCast x.text)
  | cast _ type t => IsCast scene t.expr.static type ∧ t.IsProper scene
  | binary m l r => Shows scene.world.index m.static m.converted ∧ m.op ∈ Target.rust.levels.map (·.1) ∧
      (m.symbol.filter (·.kind = .operator)) = none ∧ isText l.expr.static = false ∧ isText r.expr.static = false ∧
      isShared l.expr.static = false ∧ l.IsProper scene ∧ r.IsProper scene

variable {idx : TypeIndex} {scene : Scene} {x : Rendered} {t : CastTree} {m : Mark} {least : Prec}
  {static converted : Option Ty} {kind : CastKind} {e : Expr} {levels : Nat}

/-! ## The end of a text -/

theorem isTypeName_primitive (p : Primitive) : isTypeName (Target.rust.primitive p) = true := by
  cases p <;> decide +kernel

theorem endsInCast_operand : EndsInCast (x.operand least) ↔ least ≤ x.prec ∧ EndsInCast x.text := by
  rw [Rendered.operand]
  split
  · next loose => simp [not_endsInCast_closed, loose]
  · next tight => simp [Nat.le_of_not_lt tight]

theorem endsInCast_written {type : Option Ty} (named : isTypeName (castName idx kind type) = true) :
    EndsInCast (written idx kind type x).text :=
  endsInCast_cast named

/-- Boxes are no casts. -/
theorem not_endsInCast_boxed (type : Option Ty) :
    ¬ EndsInCast (Target.rust.applyForm idx ⟨"phase::boxed(\x7bexpr\x7d)", Prec.lowest, Prec.postfixed⟩ type x).text := by
  have length : "\x7bexpr\x7d".length = 6 := by decide
  have text : (Target.rust.applyForm idx ⟨"phase::boxed(\x7bexpr\x7d)", Prec.lowest, Prec.postfixed⟩ type x).text =
      "phase::boxed(" ++ x.operand Prec.lowest ++ ")" := by
    apply String.toList_injective
    simp [Target.applyForm, Target.typeMarks, replaceMarks, replaceFrom, afterChars?, length]
  rw [text]
  exact not_endsInCast_closed _

/-- The forms of Rust for casts write the expression, `as` and a name. -/
theorem applyForm_eq_written {form : CastForm} (isCast : kind ∈ [.numeric, .upcast])
    (made : Target.rust.castForm? kind = some form) (type : Option Ty) :
    Target.rust.applyForm idx form type x = written idx kind type x := by
  have length : "\x7bexpr\x7d".length = 6 ∧ "\x7btype\x7d".length = 6 ∧ "\x7bowned\x7d".length = 7 := by decide
  simp only [mem_cons, not_mem_nil, or_false] at isCast
  obtain ⟨rfl⟩ | ⟨rfl⟩ := isCast <;> cases made
  all_goals
    refine congrArg (Rendered.mk · _ _) (String.toList_injective ?_)
    simp [castName, Target.typeMarks, replaceMarks, replaceFrom, afterChars?, length]

theorem exists_primitive_of_numeric {s c : Option Ty} (numeric : CastKind.decide s c = .numeric) :
    ∃ p, c = some (.primitive p) := by
  have found : (c.bind Ty.primitive?).isSome := by
    unfold CastKind.decide at numeric
    grind
  cases c with
  | none => cases found
  | some c =>
    cases c with
    | primitive p => exact ⟨p, rfl⟩
    | _ => cases found

theorem isTypeName_castName (shows : Shows idx static converted) (cast : IsConverted static converted) :
    isTypeName (castName idx (CastKind.decide static converted) converted) = true := by
  simp only [IsConverted, mem_cons, not_mem_nil, or_false] at cast
  rcases cast with numeric | upcast
  · obtain ⟨p, rfl⟩ := exists_primitive_of_numeric numeric
    rw [numeric]
    exact isTypeName_primitive p
  · rw [upcast]
    exact (shows upcast).2

/-- **A conversion ends in a cast** exactly when it writes one, or when it writes nothing behind a cast. -/
theorem endsInCast_convert (shows : Shows idx static converted) :
    EndsInCast (Target.rust.convert idx static converted x).text ↔
      x.mode ≠ .settled ∧ IsConverted static converted ∨
        (x.mode = .settled ∨ CastKind.decide static converted = .none) ∧ EndsInCast x.text := by
  by_cases settled : x.mode = .settled
  · rw [Target.rust.convert_of_settled idx settled]
    simp [settled]
  · by_cases cast : IsConverted static converted
    · have made : ∃ form, Target.rust.castForm? (CastKind.decide static converted) = some form := by
        simp only [IsConverted, mem_cons, not_mem_nil, or_false] at cast
        rcases cast with kind | kind <;> exact ⟨_, by rw [kind]; rfl⟩
      obtain ⟨form, made⟩ := made
      rw [Target.convert, if_neg settled, made]
      simp only [applyForm_eq_written cast made]
      exact iff_of_true (endsInCast_written (isTypeName_castName shows cast)) (.inl ⟨settled, cast⟩)
    · cases kind : CastKind.decide static converted with
      | none =>
        rw [Target.rust.convert_of_none idx kind]
        simp [cast]
      | box =>
        rw [Target.convert, if_neg settled, kind]
        exact iff_of_false (not_endsInCast_boxed _) (by simp [cast, settled])
      | numeric | upcast => exact absurd kind (by simp_all [IsConverted])

theorem logicalOr_le_precedence {op : String} (known : op ∈ Target.rust.levels.map (·.1)) :
    Prec.logicalOr ≤ Target.rust.precedence op := by
  revert op
  decide +kernel

theorem endsInCast_iff (proper : t.IsProper scene) (operator : Prec.logicalOr ≤ least) :
    EndsInCast ((t.rendered scene.world.index).operand least) ↔
      least ≤ (t.rendered scene.world.index).prec ∧ t.EndsBare scene.world.index := by
  rw [endsInCast_operand]
  induction t generalizing least with
  | leaf e x =>
    obtain ⟨shows, -, ends⟩ := proper
    refine and_congr_right fun bare => ?_
    rw [EndsBare, rendered, endsInCast_convert shows]
    refine or_iff_left fun ⟨kept, ending⟩ => ?_
    -- A leaf that is not converted has its own level.
    have same : Target.rust.convert scene.world.index e.static e.converted x = x :=
      kept.elim (Target.rust.convert_of_settled _) (Target.rust.convert_of_none _)
    rw [rendered, same] at bare
    exact (ends.resolve_left (Nat.not_lt.mpr (Nat.le_trans operator bare))).2 ending
  | cast m type t => exact and_congr_right fun _ => iff_of_true (endsInCast_written proper.1.named) trivial
  | binary m l r _ ih =>
    obtain ⟨shows, known, -, -, -, -, -, proper⟩ := proper
    refine and_congr_right fun _ => ?_
    have compound : (Rendered.binary .rust m.op (l.rendered scene.world.index) (r.rendered scene.world.index)).mode ≠ .settled := by
      simp [Rendered.binary, Rendered.compound]
    rw [EndsBare, rendered, endsInCast_convert shows, and_iff_right compound, or_iff_right compound, ← Nat.succ_le_iff,
      ← ih proper (Nat.le_succ_of_le (logicalOr_le_precedence known)), ← endsInCast_operand]
    exact or_congr_right (and_congr_right fun _ => endsInCast_binary known)

/-! ## Emission -/

theorem emits_convert {r : Emitter} (rust : scene.target = .rust)
    (shows : x.mode = .settled ∨ Shows scene.world.index e.static e.converted)
    (bare : Emits (r.bare e) scene x) :
    Emits (r.value (some e)) scene (Target.rust.convert scene.world.index e.static e.converted x) := by
  have allowed : Target.rust.refusedCast? x.mode e.static e.converted = none := by
    rcases shows with settled | shows
    · rw [settled]
      rfl
    · by_cases upcast : CastKind.decide e.static e.converted = .upcast
      · exact (shows upcast).1 _
      · unfold Target.refusedCast?
        grind
  exact rust ▸ emits_converted (rust ▸ allowed) bare

theorem emits_binary_node {m : Mark} {l r : Expr} {y : Rendered} (rust : scene.target = .rust)
    (known : m.op ∈ Target.rust.levels.map (·.1)) (user : m.symbol.filter (·.kind = .operator) = none)
    (text : isText l.static = false ∧ isText r.static = false) (shared : isShared l.static = false)
    (hx : Emits ((Emitter.within levels).value (some l)) scene x)
    (hy : Emits ((Emitter.within levels).value (some r)) scene y) :
    Emits ((Emitter.within (levels + 1)).bare (.node m (.binary (some l) (some r)))) scene (.binary .rust m.op x y) := by
  have coalesce : m.op ≠ "??" := by
    rintro same
    exact absurd (same ▸ known) (by decide)
  have emitted : Emits (Emit.binary (Emitter.within levels) (.node m (.binary (some l) (some r))) (some l) (some r)) scene _ :=
    emits_binary user coalesce text shared hx hy
  rw [rust, if_neg (by simp)] at emitted
  exact emitted

theorem emits_cast_node {m : Mark} {type : Ty} (rust : scene.target = .rust)
    (isCast : IsCast scene (staticOf (some e)) type) (hx : Emits ((Emitter.within levels).value (some e)) scene x) :
    Emits ((Emitter.within (levels + 1)).bare (.node m (.typed .cast (some type) (some e)))) scene
      (written scene.world.index (kindOf type) (some type) x) := by
  refine hx.bind (.bind .target ?_)
  simp only [rust]
  have noted : Emits (noteFull (some type)) scene () := fun sheet => ⟨_, rfl⟩
  refine noted.bind (.bind .target ?_)
  obtain ⟨typed, valued, spelled, up, -⟩ := isCast
  rw [rust, if_neg (Bool.eq_false_iff.mp typed), if_neg (Bool.eq_false_iff.mp valued), if_neg (Bool.eq_false_iff.mp spelled)]
  unfold kindOf
  split
  · next reference =>
    obtain ⟨s, source, assignable, allowed⟩ := up reference
    rw [source]
    refine .bind (fun sheet => ⟨sheet, rfl⟩) ?_
    rw [if_neg (by simp [assignable])]
    simp only [allowed]
    exact fun sheet => ⟨sheet, by rw [← applyForm_eq_written (by decide) rfl]; rfl⟩
  · exact fun sheet => ⟨sheet, by rw [← applyForm_eq_written (by decide) rfl]; rfl⟩

/-- **Every proper tree is emitted**, as it is rendered. -/
theorem emits_rendered (rust : scene.target = .rust) (proper : t.IsProper scene)
    (deep : t.expr.depth ≤ levels) :
    Emits ((Emitter.within levels).value (some t.expr)) scene (t.rendered scene.world.index) := by
  induction t generalizing levels with
  | leaf e x =>
    obtain ⟨shows, emits, -⟩ := proper
    exact emits_convert rust (.inr shows) (emits levels deep)
  | cast m type t ih =>
    obtain ⟨isCast, proper⟩ := proper
    obtain ⟨rest, rfl, parts⟩ := exists_level deep
    exact emits_convert rust (.inl rfl) (emits_cast_node rust isCast (ih proper parts))
  | binary m l r ihl ihr =>
    obtain ⟨shows, known, user, textl, textr, shared, properl, properr⟩ := proper
    obtain ⟨rest, rfl, parts⟩ := exists_level deep
    have left := ihl properl (Nat.le_trans (Nat.le_max_left _ _) parts)
    have right := ihr properr (Nat.le_trans (Nat.le_max_right _ _) parts)
    exact emits_convert rust (.inr shows) (emits_binary_node rust known user ⟨textl, textr⟩ shared left right)

/-- **What stands in front of `<` and `<<` ends in a bare cast** exactly when the left operand has no parentheses and ends in
a cast. -/
theorem cast_before_less_iff (rust : scene.target = .rust) {l r : CastTree} (proper : (binary m l r).IsProper scene)
    (least : Prec) (less : (m.op, least) ∈ [("<", Prec.bitXor), ("<<", Prec.shift)])
    (deep : (binary m l r).expr.depth ≤ levels) :
    ∃ x before after, Emits ((Emitter.within levels).bare (binary m l r).expr) scene x ∧
      x.text = before ++ " " ++ m.op ++ " " ++ after ∧
      (EndsInCast before ↔
        least ≤ (l.rendered scene.world.index).prec ∧ l.EndsBare scene.world.index) := by
  obtain ⟨-, known, user, textl, textr, shared, properl, properr⟩ := proper
  obtain ⟨rest, rfl, parts⟩ := exists_level deep
  have left := emits_rendered rust properl (Nat.le_trans (Nat.le_max_left _ _) parts)
  have right := emits_rendered rust properr (Nat.le_trans (Nat.le_max_right _ _) parts)
  have level : Prec.logicalOr ≤ least ∧ ∀ x y, (Rendered.binary .rust m.op x y).text =
      x.operand least ++ " " ++ m.op ++ " " ++ y.operand (Target.rust.precedence m.op + 1) := by
    simp only [mem_cons, Prod.mk.injEq, not_mem_nil, or_false] at less
    rcases less with ⟨op, rfl⟩ | ⟨op, rfl⟩
    · exact ⟨by decide, fun x y => by rw [op]; rfl⟩
    · exact ⟨by decide, fun x y => by rw [op]; rfl⟩
  exact ⟨_, _, _, emits_binary_node rust known user ⟨textl, textr⟩ shared left right, level.2 _ _,
    endsInCast_iff properl level.1⟩

def one : CastTree := leaf (.node (integerMark "" false none) (.literal ⟨.int, "1"⟩)) (.primary "1")

def wide : CastTree := cast (integerMark "" false none) (.primitive .int64) one

def sum : CastTree := binary (integerMark "+" false none) one wide

theorem isProper_one : one.IsProper (.bare .rust) := by
  refine ⟨nofun, fun levels deep => ?_, .inr ⟨by decide, ?_⟩⟩
  · obtain ⟨rest, rfl, -⟩ := exists_level deep
    exact emits_constant (by decide)
  · rintro ⟨lead, type, eq, named, -⟩
    rw [show split ' ' (Rendered.primary "1").text = ["1"] by decide +kernel] at eq
    cases lead <;> simp_all

theorem isProper_wide : wide.IsProper (.bare .rust) :=
  ⟨⟨by decide, by decide, by decide, nofun, isTypeName_primitive .int64⟩, isProper_one⟩

theorem cast_before_shift : (binary (integerMark "<<" false none) sum one).IsProper (.bare .rust) ∧
    ∃ x before after, Emits ((Emitter.within 4).bare (binary (integerMark "<<" false none) sum one).expr) (.bare .rust) x ∧
      x.text = before ++ " " ++ "<<" ++ " " ++ after ∧ EndsInCast before := by
  have proper : (binary (integerMark "<<" false none) sum one).IsProper (.bare .rust) :=
    ⟨nofun, by decide, rfl, rfl, rfl, rfl, ⟨nofun, by decide, rfl, rfl, rfl, rfl, isProper_one, isProper_wide⟩,
      isProper_one⟩
  obtain ⟨x, before, after, emits, text, ends⟩ := cast_before_less_iff rfl proper Prec.shift (by decide) (Nat.le_refl 4)
  exact ⟨proper, x, before, after, emits, text, ends.mpr ⟨by decide, .inr ⟨rfl, by decide, trivial⟩⟩⟩

/-- A cast to the left of `<` has no parentheses. -/
theorem cast_before_less : EndsInCast "1 as i64" ∧ ∃ x,
    Emits ((Emitter.within 3).bare (binary (integerMark "<" false none) wide one).expr) (.bare .rust) x ∧
      x.text = "1 as i64 < 1" := by
  have text : "1" ++ " as " ++ Target.rust.primitive .int64 = "1 as i64" := by decide +kernel
  exact ⟨text ▸ endsInCast_cast (isTypeName_primitive .int64), _, emits_binary_node rfl (by decide) rfl ⟨rfl, rfl⟩ rfl
    (emits_rendered rfl isProper_wide (by decide)) (emits_rendered rfl isProper_one (by decide)), by decide +kernel⟩

end CastTree

end Polyglot
