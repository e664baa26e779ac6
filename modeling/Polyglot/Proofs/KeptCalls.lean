import Polyglot.Proofs.ArgumentLists
import Polyglot.Proofs.CompoundAssignment
import Polyglot.Proofs.Conversions
import Polyglot.Proofs.PathParts

/-!
# Calls of which Rust borrows the result

In Rust a value that is not copied by itself is cloned when it is read, and a clone that is only borrowed is dropped again
(`borrowed`). What is dropped is the end of a text, whoever wrote it: a call of a method that is emitted as `clone`, on an
object and without arguments, is dropped as well, and what it was called on takes its place.
-/

namespace Polyglot

open List

/-! ## Ends of texts -/

/-- The part stands somewhere in the text. -/
def Text.Contains (text part : String) : Prop := part.toList <:+: text.toList

/-- A clone is what would be dropped. -/
def EndsInClone (text : String) : Prop := ".clone()".toList <:+ text.toList

instance (text : String) : Decidable (EndsInClone text) := inferInstanceAs (Decidable (_ <:+ _))

section Suffixes

variable {α : Type} {c : α} {s w l n : List α}

/-- An end that lacks an element goes back to behind the element at most. -/
theorem suffix_of_notMem (suffix : s <:+ l ++ c :: n) (free : c ∉ s) : s <:+ n := by
  rcases suffix_or_suffix_of_suffix suffix (suffix_append l (c :: n)) with within | around
  · rcases suffix_cons_iff.mp within with rfl | within
    · exact absurd mem_cons_self free
    · exact within
  · exact absurd (around.mem mem_cons_self) free

theorem cons_suffix_iff (freeWord : c ∉ w) (freeEnd : c ∉ n) : c :: w <:+ l ++ c :: n ↔ n = w := by
  constructor
  · intro suffix
    rcases suffix_or_suffix_of_suffix suffix (suffix_append l (c :: n)) with within | around
    · rcases suffix_cons_iff.mp within with same | within
      · exact (cons.inj same).2.symm
      · exact absurd (within.mem mem_cons_self) freeEnd
    · rcases suffix_cons_iff.mp around with same | around
      · exact (cons.inj same).2
      · exact absurd (around.mem mem_cons_self) freeWord
  · rintro rfl
    exact suffix_append _ _

/-- A word and an opening bracket at the end of a text with a bracket in it: the bracket is the last one, or they stand behind
it. -/
theorem snoc_suffix_iff (free : c ∉ w) : w ++ [c] <:+ l ++ c :: n ↔ n = [] ∧ w <:+ l ∨ w ++ [c] <:+ n := by
  rcases eq_nil_or_concat n with rfl | ⟨m, d, rfl⟩
  · rw [suffix_append_self_iff]
    simp
  · have behind : w <:+ l ++ c :: m ↔ w <:+ m :=
      ⟨fun suffix => suffix_of_notMem suffix free, fun suffix => suffix.trans ⟨l ++ [c], by simp⟩⟩
    have last : w ++ [c] <:+ l ++ c :: m ++ [d] ↔ w <:+ l ++ c :: m ∧ [c] = [d] := suffix_append_inj_of_length_eq rfl
    have lastWithin : w ++ [c] <:+ m ++ [d] ↔ w <:+ m ∧ [c] = [d] := suffix_append_inj_of_length_eq rfl
    rw [concat_eq_append, lastWithin, ← cons_append, ← append_assoc, last, behind]
    simp

end Suffixes

namespace Text

variable {text part inner : String}

theorem Contains.refl (text : String) : Contains text text := infix_refl _

theorem Contains.trans (first : Contains text inner) (second : Contains inner part) : Contains text part :=
  IsInfix.trans second first

theorem contains_append (before part after : String) : Contains (before ++ part ++ after) part := by
  rw [Contains, String.toList_append, String.toList_append]
  exact infix_append _ _ _

end Text

open Text

theorem borrowed_append (kept : String) : borrowed (kept ++ ".clone()") = kept := dropTail_append kept ".clone()"

theorem borrowed_of_not_endsInClone {text : String} (other : ¬ EndsInClone text) : borrowed text = text := by
  rcases dropTail_eq_or ".clone()" text with same | cut
  · exact same
  · refine absurd ?_ other
    rw [EndsInClone, cut, String.toList_append]
    exact suffix_append _ _

/-- **When a call ends in the call that clones a value**: it has no arguments and is a call of `clone` on something, or its
arguments end so, but for the last bracket. -/
theorem endsInClone_call (head items : String) : EndsInClone (head ++ "(" ++ items ++ ")") ↔
    items = "" ∧ ".clone".toList <:+ head.toList ∨ ".clone(".toList <:+ items.toList := by
  have chars : (head ++ "(" ++ items ++ ")").toList = (head.toList ++ '(' :: items.toList) ++ [')'] := by
    simp [String.toList_append]
  have word : ".clone()".toList = (".clone".toList ++ ['(']) ++ [')'] := rfl
  rw [EndsInClone, chars, word, suffix_append_self_iff, snoc_suffix_iff (by decide), String.toList_eq_nil_iff]
  rfl

/-- A method that is called on an object is the one that clones exactly when it has its name. -/
theorem clone_suffix_dot {lead name : String} (free : '.' ∉ name.toList) :
    ".clone".toList <:+ (lead ++ "." ++ name).toList ↔ name = "clone" := by
  have chars : (lead ++ "." ++ name).toList = lead.toList ++ '.' :: name.toList := by simp [String.toList_append]
  have word : ".clone".toList = '.' :: "clone".toList := rfl
  rw [chars, word, cons_suffix_iff (by decide) free, String.toList_inj]

/-- A method that is called on a type is not. -/
theorem not_clone_suffix_path {lead name : String} (free : '.' ∉ name.toList) :
    ¬ ".clone".toList <:+ (lead ++ "::" ++ name).toList := by
  intro suffix
  have chars : (lead ++ "::" ++ name).toList = (lead.toList ++ [':']) ++ ':' :: name.toList := by simp [String.toList_append]
  rw [chars] at suffix
  exact free ((suffix_of_notMem suffix (by decide)).mem (by decide))

/-- Neither is what ends in a bracket. -/
theorem not_clone_suffix_bracket {head : List Char} {c : Char} (foreign : c ∉ ".clone".toList) :
    ¬ ".clone".toList <:+ head ++ [c] := by
  intro suffix
  have nothing := suffix_of_notMem suffix foreign
  simp at nothing

/-- An operand has the text of the expression in it. -/
theorem Rendered.contains_operand (x : Rendered) (least : Prec) : Contains (x.operand least) x.text := by
  unfold operand
  split
  · exact contains_append "(" x.text ")"
  · exact .refl _

namespace Target

variable {t : Target}

/-- A conversion keeps the text of what it converts. -/
theorem contains_convert (t : Target) (idx : TypeIndex) (static converted : Option Ty) (x : Rendered) :
    Contains (t.convert idx static converted x).text x.text := by
  unfold convert
  split
  · exact .refl _
  · split
    · next form made =>
      obtain ⟨before, after, around⟩ := castForm?_around made
      rw [t.applyForm_eq idx around]
      exact (contains_append _ _ _).trans (x.contains_operand _)
    · exact .refl _

end Target

namespace Emit

/-! ## Places -/

/-- **A place where Rust borrows the value of an expression**, with what stands around it. -/
inductive BorrowPlace where
  | receiver (member : Symbol)
  /-- The receiver of a member with a template. -/
  | templateReceiver (template : Template)
  /-- The left operand of a comparison by identity. -/
  | left (node : Expr) (other : Option Expr)
  /-- The right operand of a comparison by identity. -/
  | right (node : Expr) (other : Option Expr)
  /-- An array or a text of which an element is read. -/
  | indexed (node : Expr) (index : Argument Expr)
  | weakValue (node : Expr) (field : Option Expr)
  | collection (loop : Stmt) (type : Option Ty) (body : Option Stmt)

namespace BorrowPlace

/-- What is emitted around the expression. -/
def emit (r : Emitter) (e : Expr) : BorrowPlace → Emit String
  | receiver member => memberLead r (some e) member
  | templateReceiver template => do pure (← usedReceiver r template (some e)).text
  | left node other => do pure (← binary r node (some e) other).text
  | right node other => do pure (← binary r node other (some e)).text
  | indexed node index => do pure (← elementAccess r node (some e) [index]).text
  | weakValue node field => do pure (← assignment r node field (some e)).text
  | collection loop type body => capture (foreachLoop r loop type (some e) body)

/-- Two operands are compared by identity. -/
def IsIdentityTest (node : Expr) (left right : Option Expr) : Prop :=
  node.userOperator? = none ∧ (node.mark.op = "==" ∨ node.mark.op = "!=") ∧ isShared (staticOf left) = true ∧
    isShared (staticOf right) = true

/-- The value is in fact borrowed there. -/
def Borrows (e : Expr) : BorrowPlace → Prop
  | receiver member => member.isStatic = false ∧ member.kind ≠ .enumValue
  | templateReceiver template => template.uses "this" = true
  | left node other => IsIdentityTest node (some e) other
  | right node other => IsIdentityTest node other (some e)
  | indexed _ _ => (∃ elem, e.static = some (.array elem)) ∨ e.static = some .string
  | weakValue node field =>
    (symbolOf field).any (fun s => s.kind = .field && s.isWeak) = true ∧ assignmentOperator node = "="
  | collection _ _ _ => True

end BorrowPlace

section Places

variable {r : Emitter} {scene : Scene} {e callee : Expr} {typeArgs : List Ty} {args : List (Argument Expr)} {text : String}

def ShowsBorrowed (r : Emitter) (scene : Scene) (e : Expr) (text : String) : Prop :=
  ∃ x least before after, MayGive scene (r.value (some e)) x ∧ least ≤ Prec.postfixed ∧
    text = before ++ borrowed (x.operand least) ++ after

namespace ShowsBorrowed

theorem of_value {x : Rendered} (value : MayGive scene (r.value (some e)) x) {least : Prec} (le : least ≤ Prec.postfixed) :
    ShowsBorrowed r scene e (borrowed (x.operand least)) :=
  ⟨x, least, "", "", value, le, by rw [String.empty_append, String.append_empty]⟩

theorem prepend (shows : ShowsBorrowed r scene e text) (lead : String) : ShowsBorrowed r scene e (lead ++ text) := by
  obtain ⟨x, least, before, after, value, le, rfl⟩ := shows
  exact ⟨x, least, lead ++ before, after, value, le, by simp only [String.append_assoc]⟩

theorem append (shows : ShowsBorrowed r scene e text) (tail : String) : ShowsBorrowed r scene e (text ++ tail) := by
  obtain ⟨x, least, before, after, value, le, rfl⟩ := shows
  exact ⟨x, least, before, after ++ tail, value, le, by simp only [String.append_assoc]⟩

end ShowsBorrowed

theorem MayGive.of_target {t : Target} (run : MayGive scene target t) : t = scene.target := by
  obtain ⟨before, after, run⟩ := run
  cases run
  rfl

theorem MayGive.of_dialect {d : Dialect} (run : MayGive scene dialect d) : d = scene.target.dialect := by
  obtain ⟨before, after, run⟩ := run
  cases run
  rfl

theorem MayGive.of_operand {e : Option Expr} {least : Prec} (run : MayGive scene (r.operand e least) text) :
    ∃ x, MayGive scene (r.value e) x ∧ text = x.operand least :=
  run.of_map

theorem showsBorrowed_memberLead (rust : scene.target = .rust) (form : e.form = .call callee typeArgs args) {member : Symbol}
    (instanced : member.isStatic = false) (named : member.kind ≠ .enumValue)
    (run : MayGive scene (memberLead r (some e) member) text) : ShowsBorrowed r scene e text := by
  have unnamed : ¬ (member.isStatic || member.kind = .enumValue) = true := by simp [instanced, named]
  rw [memberLead, if_neg unnamed] at run
  obtain ⟨receiver, on, run⟩ := run.of_bind
  simp only [receiverOf, Option.map_some, form] at on
  obtain ⟨x, value, rfl⟩ := on.of_map
  obtain ⟨d, _, run⟩ := run.of_bind
  obtain ⟨t, on, run⟩ := run.of_bind
  obtain rfl := on.of_target.trans rust
  obtain ⟨joint, _, rfl⟩ := run.of_map
  exact (ShowsBorrowed.of_value value (le_refl _)).append joint

variable {body : Option Stmt} {head : String} {node : Expr} {x : Rendered}

section

variable (rust : scene.target = .rust)
include rust

theorem showsBorrowed_usedReceiver {template : Template} (used : template.uses "this" = true)
    (run : MayGive scene (usedReceiver r template (some e)) x) : ShowsBorrowed r scene e x.text := by
  simp only [usedReceiver, used, if_true] at run
  obtain ⟨y, value, run⟩ := run.of_bind
  obtain ⟨t, on, run⟩ := run.of_bind
  obtain rfl := on.of_target.trans rust
  obtain rfl := run.of_pure
  have shown : y.operand Prec.lowest = y.text := if_neg (Nat.not_lt_zero _)
  have shows := ShowsBorrowed.of_value value (Nat.zero_le Prec.postfixed)
  split
  · next same => rwa [← same]
  · exact shows

theorem showsBorrowed_identity {left right : Option Expr} (test : BorrowPlace.IsIdentityTest node left right)
    (run : MayGive scene (binary r node left right) x) (operand : left = some e ∨ right = some e) :
    ShowsBorrowed r scene e x.text := by
  obtain ⟨plain, op, sharedLeft, sharedRight⟩ := test
  have apart : isConcatenation node left right = false := by
    rcases op with op | op <;> simp [isConcatenation, op]
  obtain ⟨t, on, run⟩ := run.of_bind
  obtain rfl := on.of_target.trans rust
  have tested : (node.userOperator?.isNone && (node.mark.op = "==" || node.mark.op = "!=") && isShared (staticOf left) &&
      isShared (staticOf right)) = true := by
    simp [plain, op, sharedLeft, sharedRight]
  simp only [apart, Bool.false_eq_true, if_false, tested, if_true, identityTest] at run
  obtain ⟨l, first, run⟩ := run.of_bind
  obtain ⟨rt, second, run⟩ := run.of_bind
  obtain ⟨y, leftValue, rfl⟩ := first.of_operand
  obtain ⟨z, rightValue, rfl⟩ := second.of_operand
  obtain rfl := run.of_pure
  have shows : ShowsBorrowed r scene e
      ("Rc::ptr_eq(&" ++ borrowed (y.operand Prec.unary) ++ ", &" ++ borrowed (z.operand Prec.unary) ++ ")") := by
    rcases operand with rfl | rfl
    · exact ((((ShowsBorrowed.of_value leftValue (by decide)).prepend _).append _).append _).append _
    · exact ((ShowsBorrowed.of_value rightValue (by decide)).prepend _).append _
  split
  · exact shows.prepend "!"
  · exact shows

theorem showsBorrowed_elementAccess {index : Argument Expr}
    (indexed : (∃ elem, e.static = some (.array elem)) ∨ e.static = some .string)
    (run : MayGive scene (elementAccess r node (some e) [index]) x) : ShowsBorrowed r scene e x.text := by
  obtain ⟨t, on, run⟩ := run.of_bind
  obtain rfl := on.of_target.trans rust
  obtain ⟨elem, read⟩ : ∃ elem, MayGive scene (rustIndex r (some e) (some index.value) elem) x := by
    rcases indexed with ⟨elem, static⟩ | static
    · simp only [staticOf, Option.bind_some, static] at run
      exact ⟨some elem, run⟩
    · simp only [staticOf, Option.bind_some, static] at run
      exact ⟨none, run⟩
  obtain ⟨sheet, _, read⟩ := read.of_bind
  obtain ⟨_, _, read⟩ := read.of_bind
  obtain ⟨i, _, read⟩ := read.of_bind
  obtain ⟨_, _, read⟩ := read.of_bind
  obtain ⟨y, on, read⟩ := read.of_bind
  obtain ⟨y, value, rfl⟩ := on.of_operand
  cases elem with
  | none =>
    obtain rfl := read.of_pure
    exact (((ShowsBorrowed.of_value value (le_refl _)).append _).append _).append _
  | some elem =>
    obtain rfl := read.of_pure
    have shows (joint : String) :
        ShowsBorrowed r scene e (borrowed (y.operand Prec.postfixed) ++ joint ++ "[" ++ (i.operand Prec.unary ++ " as usize") ++ "]") :=
      ((((ShowsBorrowed.of_value value (le_refl _)).append _).append _).append _).append _
    split
    · exact shows _
    · exact (shows _).append ".clone()"

theorem showsBorrowed_assignment {field : Option Expr}
    (weak : (symbolOf field).any (fun s => s.kind = .field && s.isWeak) = true) (op : assignmentOperator node = "=")
    (run : MayGive scene (assignment r node field (some e)) x) : ShowsBorrowed r scene e x.text := by
  obtain ⟨t, on, run⟩ := run.of_bind
  obtain rfl := on.of_target.trans rust
  simp only [weak, op, decide_true, Bool.true_and, Bool.true_or, if_true] at run
  obtain ⟨y, value, run⟩ := run.of_bind
  obtain ⟨place, _, rfl⟩ := run.of_map
  exact ((ShowsBorrowed.of_value value (by decide)).prepend _).append _

omit rust in
/-- What is written stands behind the text that is there already, and maybe behind an indentation. -/
theorem Buffer.text_write_eq (b : Buffer) (unit s : String) : ∃ pad, (b.write unit s).text = b.text ++ pad ++ s := by
  unfold Buffer.write
  split
  · next empty => exact ⟨"", by rw [empty, String.append_empty, String.append_empty]⟩
  · split
    · exact ⟨_, by rw [Buffer.append_text, String.append_assoc]⟩
    · exact ⟨"", by rw [Buffer.append_text, String.append_empty]⟩

theorem openBlock_rust (some : head ≠ "") (sheet : Sheet) :
    openBlock head scene sheet = (.ok (), { sheet with writer := (sheet.writer.writeLine (head ++ " \x7b")).indent }) := by
  have sameLine : scene.target.dialect.braceOnOwnLine = false := by
    rw [rust]
    rfl
  unfold openBlock
  rw [if_neg some]
  change (if scene.target.dialect.braceOnOwnLine = true then _ else _ : Emit Unit) scene sheet = _
  rw [sameLine, if_neg Bool.false_ne_true]
  rfl

theorem text_loop (tidy : r.Disciplined) (some : head ≠ "") {sheet sheet' : Sheet}
    (run : loop r head body scene sheet = (.ok (), sheet')) :
    ∃ lead tail, sheet'.writer.top.text = sheet.writer.top.text ++ lead ++ head ++ tail := by
  obtain ⟨_, opened, first, rest⟩ := bind_eq_ok run
  rw [openBlock_rust rust some] at first
  obtain rfl := (Prod.mk.inj first).2
  obtain ⟨pad, written⟩ := Buffer.text_write_eq sheet.writer.top sheet.writer.unit (head ++ " \x7b")
  let writer := sheet.writer.writeLine (head ++ " \x7b")
  have closes : Writes (writer.level + 1) writer.level (r.body body >>= fun _ => closeBlock) :=
    (writes_body tidy body).bind fun _ => writes_closeBlock
  obtain ⟨added, more⟩ := (closes scene { sheet with writer := writer.indent } rfl).1.text
  rw [rest] at more
  refine ⟨pad, " \x7b\n" ++ added, more.trans ?_⟩
  have line : writer.indent.top.text = (sheet.writer.top.write sheet.writer.unit (head ++ " \x7b")).text ++ "\n" := rfl
  rw [line, written]
  simp only [String.append_assoc]
  rfl

theorem showsBorrowed_foreachLoop (tidy : r.Disciplined) {loop : Stmt} {type : Option Ty}
    (run : MayGive scene (capture (foreachLoop r loop type (some e) body)) text) : ShowsBorrowed r scene e text := by
  obtain ⟨before, after, run⟩ := run
  have keeps (inner : Sheet) (run : foreachLoop r loop type (some e) body scene { before with writer := before.writer.push } =
      (.ok (), inner)) : before.writer.push.Extends inner.writer :=
    Writes.extends (fun n => runs_foreachLoop (trees tidy) loop type (some e) body) run
  obtain ⟨inner, looped, captured, _⟩ := capture_eq_ok keeps run
  obtain ⟨declared, sheet, quiet, looped⟩ := bind_eq_ok looped
  obtain ⟨shown, sheet', operand, looped⟩ := bind_eq_ok looped
  obtain ⟨t, sheet'', on, looped⟩ := bind_eq_ok looped
  obtain rfl := (MayGive.of_target ⟨_, _, on⟩).trans rust
  obtain ⟨x, value, rfl⟩ := MayGive.of_operand ⟨_, _, operand⟩
  obtain ⟨lead, tail, written⟩ := text_loop rust tidy (by simp) looped
  rw [captured, written]
  exact (((((ShowsBorrowed.of_value value (le_refl _)).prepend _).append _).prepend _).append _)

/-- **The value of a call is shown in each of the places.** -/
theorem showsBorrowed_emit (tidy : r.Disciplined) (form : e.form = .call callee typeArgs args) {place : BorrowPlace}
    (borrows : place.Borrows e) (run : MayGive scene (place.emit r e) text) : ShowsBorrowed r scene e text := by
  cases place with
  | receiver member => exact showsBorrowed_memberLead rust form borrows.1 borrows.2 run
  | templateReceiver template =>
    obtain ⟨x, used, rfl⟩ := run.of_map
    exact showsBorrowed_usedReceiver rust borrows used
  | left node other =>
    obtain ⟨x, compared, rfl⟩ := run.of_map
    exact showsBorrowed_identity rust borrows compared (.inl rfl)
  | right node other =>
    obtain ⟨x, compared, rfl⟩ := run.of_map
    exact showsBorrowed_identity rust borrows compared (.inr rfl)
  | indexed node index =>
    obtain ⟨x, read, rfl⟩ := run.of_map
    exact showsBorrowed_elementAccess rust borrows read
  | weakValue node field =>
    obtain ⟨x, assigned, rfl⟩ := run.of_map
    exact showsBorrowed_assignment rust borrows.1 borrows.2 assigned
  | collection loop type body => exact showsBorrowed_foreachLoop rust tidy run

end

theorem MayGive.of_value (run : MayGive scene (r.value (some e)) x) :
    ∃ y, MayGive scene (r.bare e) y ∧ x = scene.target.convert scene.world.index e.static e.converted y := by
  obtain ⟨y, bare, run⟩ := run.of_bind
  obtain ⟨t, on, run⟩ := run.of_bind
  obtain rfl := on.of_target
  refine ⟨y, bare, ?_⟩
  split at run
  · obtain ⟨before, after, run⟩ := run
    cases run
  · obtain ⟨idx, ⟨before, after, indexed⟩, run⟩ := run.of_bind
    obtain rfl := run.of_pure
    cases indexed
    rfl

end Places

/-! ## The ends of calls -/

section Calls

variable {r : Emitter} {scene : Scene} {e callee : Expr} {typeArgs : List Ty} {args : List (Argument Expr)} {s : Symbol}
  {lead name : String}

theorem rustBorrow_ends {type : Option Ty} {isCall : Bool} {joint : String} (run : MayGive scene (rustBorrow type isCall) joint) :
    ∃ borrow, joint = borrow ++ "." := by
  obtain ⟨sheet, _, run⟩ := run.of_bind
  dsimp only at run
  split at run
  · exact ⟨"", run.of_pure⟩
  · split at run
    · exact ⟨".borrow_mut()", run.of_pure⟩
    · exact ⟨".borrow()", run.of_pure⟩

/-- What stands before the name of a method that is called on an object ends in a dot. -/
theorem memberLead_ends (rust : scene.target = .rust) {on : Option Expr} (instanced : s.isStatic = false)
    (named : s.kind ≠ .enumValue) (run : MayGive scene (memberLead r on s) lead) : ∃ object, lead = object ++ "." := by
  have unnamed : ¬ (s.isStatic || s.kind = .enumValue) = true := by simp [instanced, named]
  rw [memberLead, if_neg unnamed] at run
  obtain ⟨receiver, _, run⟩ := run.of_bind
  obtain ⟨d, _, run⟩ := run.of_bind
  obtain ⟨t, on, run⟩ := run.of_bind
  obtain rfl := on.of_target.trans rust
  cases receiver with
  | self | base => exact ⟨"self", run.of_pure⟩
  | value type x =>
    obtain ⟨joint, borrowing, rfl⟩ := run.of_map
    obtain ⟨borrow, rfl⟩ := rustBorrow_ends borrowing
    exact ⟨borrowed (x.operand Prec.postfixed) ++ borrow, by rw [String.append_assoc]⟩

theorem genericCall_ends {generic : String} (run : MayGive scene (genericCall name typeArgs) generic) :
    typeArgs = [] ∧ generic = name ∨ typeArgs ≠ [] ∧ ∃ inner, generic = inner ++ ">" := by
  unfold genericCall at run
  split at run
  · next none => exact .inl ⟨isEmpty_iff.mp none, run.of_pure⟩
  · next some =>
    obtain ⟨names, _, run⟩ := run.of_bind
    obtain ⟨t, _, run⟩ := run.of_bind
    exact .inr ⟨fun none => some (isEmpty_iff.mpr none), _, run.of_pure⟩

theorem clone_suffix_callee (rust : scene.target = .rust) (isMethod : s.kind = .method ∨ s.kind = .operator)
    (word : '.' ∉ (scene.symbolName s).toList) (led : MayGive scene (callLead r callee s) lead)
    (called : MayGive scene (genericCall (scene.symbolName s) typeArgs) name) : ".clone".toList <:+ (lead ++ name).toList ↔
      scene.symbolName s = "clone" ∧ typeArgs = [] ∧ s.isStatic = false ∧ s.isExtension = false := by
  rcases genericCall_ends called with ⟨plain, rfl⟩ | ⟨typed, inner, rfl⟩
  · unfold callLead at led
    split at led
    · next belongs =>
      obtain ⟨container, _, led⟩ := led.of_bind
      obtain ⟨d, on, led⟩ := led.of_bind
      obtain rfl : d = Target.dialect .rust := rust ▸ on.of_dialect
      obtain rfl := led.of_pure
      have own : ¬ (s.isStatic = false ∧ s.isExtension = false) := by
        rintro ⟨instanced, apart⟩
        simp [instanced, apart] at belongs
      exact iff_of_false (not_clone_suffix_path word) fun both => own both.2.2
    · next apart =>
      obtain ⟨instanced, own⟩ : s.isExtension = false ∧ s.isStatic = false := by simpa using apart
      have named : s.kind ≠ .enumValue := by rcases isMethod with kind | kind <;> simp [kind]
      obtain ⟨object, rfl⟩ := memberLead_ends rust own named led
      rw [clone_suffix_dot word]
      simp [plain, instanced, own]
  · have bracket : ¬ ".clone".toList <:+ (lead ++ (inner ++ ">")).toList := by
      rw [← String.append_assoc, String.toList_append]
      exact not_clone_suffix_bracket (by decide)
    exact iff_of_false bracket fun both => typed both.2.1

variable {x : Rendered}

/-- **The call of a method ends in `.clone()`** exactly when the method is emitted as `clone` and called on an object without
arguments, or its arguments end so. -/
theorem endsInClone_invocation (rust : scene.target = .rust) (symbol : e.symbol = some s)
    (isMethod : s.kind = .method ∨ s.kind = .operator) (plain : scene.templates.find? s.key scene.target.name = none)
    (word : '.' ∉ (scene.symbolName s).toList) (run : MayGive scene (invocation r e callee typeArgs args) x) :
    ∃ items, x.prec = Prec.postfixed ∧ EndsInArguments x.text items ∧ (EndsInClone x.text ↔
        (scene.symbolName s = "clone" ∧ typeArgs = [] ∧ s.isStatic = false ∧ s.isExtension = false ∧
          Text.join ", " items = "") ∨ ".clone(".toList <:+ (Text.join ", " items).toList) := by
  obtain ⟨sheet, run⟩ := run
  obtain ⟨lead, name, items, led, called, _, rfl⟩ := run.of_invocation symbol isMethod plain
  refine ⟨items, rfl, ⟨lead ++ name, rfl⟩, ?_⟩
  rw [Rendered.postfixed, endsInClone_call, clone_suffix_callee rust isMethod word led called]
  tauto

/-- **The call of a delegate ends in `.clone()`** only if its arguments end so. -/
theorem endsInClone_delegate (rust : scene.target = .rust)
    (noMethod : ∀ s, e.symbol = some s → s.kind ≠ .method ∧ s.kind ≠ .operator)
    (run : MayGive scene (invocation r e callee typeArgs args) x) :
    ∃ items, x.prec = Prec.postfixed ∧ EndsInArguments x.text items ∧
      (EndsInClone x.text ↔ ".clone(".toList <:+ (Text.join ", " items).toList) := by
  obtain ⟨on, items, _, called⟩ := MayGive.of_delegate noMethod run
  have ends := endsInArguments_delegateCall called
  obtain ⟨t, target, called⟩ := called.of_bind
  obtain rfl := target.of_target.trans rust
  obtain rfl := called.of_pure
  refine ⟨items, rfl, ends, ?_⟩
  have bracket : ¬ ".clone".toList <:+ ("(" ++ on.text ++ ")").toList := by
    rw [String.toList_append]
    exact not_clone_suffix_bracket (by decide)
  rw [Rendered.postfixed, ← String.append_assoc, ← String.append_assoc, endsInClone_call]
  simp only [bracket, and_false, false_or]

end Calls

/-- **A call is kept where its value is borrowed**, unless the text that is shown there ends in `.clone()`. The text that is
shown is the one of the call, with the conversion that it owes; what stands before `.clone()` is all that is left of it. So a
call of a method is dropped exactly when the method is emitted as `clone` and called on an object without arguments, or its
arguments end in `.clone(`, and a call of a delegate in the latter case only. -/
theorem calls_kept (scene : Scene) (rust : scene.target = .rust) :
    (∀ (r : Emitter) (e : Expr) callee typeArgs args (place : BorrowPlace) text, r.Disciplined →
      e.form = .call callee typeArgs args → place.Borrows e → MayGive scene (place.emit r e) text →
        ∃ call shown before after, MayGive scene (r.bare e) call ∧ Contains shown call.text ∧
          text = before ++ borrowed shown ++ after ∧ (¬ EndsInClone shown → Contains text call.text) ∧
          (∀ kept, shown = kept ++ ".clone()" → text = before ++ kept ++ after) ∧
          (CastKind.decide e.static e.converted = .none → call.prec = Prec.postfixed → shown = call.text)) ∧
    (∀ (r : Emitter) isStatement (e : Expr) callee typeArgs args s call, e.form = .call callee typeArgs args →
      e.symbol = some s → (s.kind = .method ∨ s.kind = .operator) →
      scene.templates.find? s.key scene.target.name = none → '.' ∉ (scene.symbolName s).toList →
      MayGive scene (expression r isStatement e) call →
        ∃ items, call.prec = Prec.postfixed ∧ EndsInArguments call.text items ∧
          (EndsInClone call.text ↔
            (scene.symbolName s = "clone" ∧ typeArgs = [] ∧ s.isStatic = false ∧ s.isExtension = false ∧
              Text.join ", " items = "") ∨
            ".clone(".toList <:+ (Text.join ", " items).toList)) ∧
    ∀ (r : Emitter) isStatement (e : Expr) callee typeArgs args call, e.form = .call callee typeArgs args →
      (∀ s, e.symbol = some s → s.kind ≠ .method ∧ s.kind ≠ .operator) → MayGive scene (expression r isStatement e) call →
        ∃ items, call.prec = Prec.postfixed ∧ EndsInArguments call.text items ∧
          (EndsInClone call.text ↔ ".clone(".toList <:+ (Text.join ", " items).toList) := by
  refine ⟨?_, ?_, ?_⟩
  · intro r e callee typeArgs args place text tidy form borrows run
    obtain ⟨x, least, before, after, value, le, rfl⟩ := showsBorrowed_emit rust tidy form borrows run
    obtain ⟨call, bare, rfl⟩ := MayGive.of_value value
    have contains := (Rendered.contains_operand _ least).trans
      (scene.target.contains_convert scene.world.index e.static e.converted call)
    refine ⟨call, _, before, after, bare, contains, rfl, ?_, ?_, ?_⟩
    · intro other
      rw [borrowed_of_not_endsInClone other]
      exact (contains_append before _ after).trans contains
    · intro kept cloned
      rw [cloned, borrowed_append]
    · intro unconverted binds
      rw [Target.convert_of_none _ _ unconverted, Rendered.operand, if_neg (Nat.not_lt.mpr (binds ▸ le))]
  · intro r isStatement e callee typeArgs args s call form symbol isMethod plain word run
    rw [expression, form] at run
    exact endsInClone_invocation rust symbol isMethod plain word run
  · intro r isStatement e callee typeArgs args call form noMethod run
    rw [expression, form] at run
    exact endsInClone_delegate rust noMethod run

/-- A call on the current object, without arguments. -/
def ownCall (name : String) : Expr :=
  .node { place := {}, symbol := some { kind := .method, name } } (.call (.node { place := {} } .identifier) [] [])

def sizePlace : BorrowPlace := .receiver { kind := .field, name := "size" }

/-- The field of what a method gives: the call is kept. -/
theorem calls_kept_next : sizePlace.Borrows (ownCall "Next") ∧
    MayGive (.bare .rust) (sizePlace.emit (.within 2) (ownCall "Next")) "self.next().borrow_mut()." ∧
    ¬ EndsInClone "self.next()" ∧ Contains "self.next().borrow_mut()." "self.next()" := by
  have borrows : sizePlace.Borrows (ownCall "Next") := ⟨rfl, by decide⟩
  have run : MayGive (.bare .rust) (sizePlace.emit (.within 2) (ownCall "Next")) "self.next().borrow_mut()." :=
    ⟨(Scene.bare .rust).blank, _, rfl⟩
  have other : ¬ EndsInClone "self.next()" := by decide
  obtain ⟨call, shown, before, after, ⟨_, _, bare⟩, _, _, kept, _, plain⟩ :=
    (calls_kept (.bare .rust) rfl).1 (.within 2) (ownCall "Next") _ _ _ _ _ (Emitter.within_disciplined 2) rfl borrows run
  cases bare
  rw [plain rfl rfl] at kept
  exact ⟨borrows, run, other, kept other⟩

/-- **A call of the document is dropped**: the size is read from the object itself, and not from the one that its method
`Clone` gives. -/
theorem own_clone_dropped : sizePlace.Borrows (ownCall "Clone") ∧
    MayGive (.bare .rust) ((Emitter.within 2).bare (ownCall "Clone")) (.postfixed "self.clone()") ∧
    MayGive (.bare .rust) (sizePlace.emit (.within 2) (ownCall "Clone")) "self.borrow_mut()." ∧
    ¬ Contains "self.borrow_mut()." "self.clone()" := by
  refine ⟨⟨rfl, by decide⟩, ⟨(Scene.bare .rust).blank, _, rfl⟩, ⟨(Scene.bare .rust).blank, _, rfl⟩, fun part => ?_⟩
  have letter : 'c' ∈ "self.clone()".toList := by decide
  exact absurd (part.subset letter) (by decide)

end Emit

end Polyglot
