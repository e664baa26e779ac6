import Polyglot.Emit.Knot
import Polyglot.Proofs.Writing.Basic

/-!
# Values held as objects of C++

A value that is held as an object of C++ is in a box. The conversion to an object puts it there, a type test looks for a box,
and a cast takes the value out of it. Each has a list of types of its own: primitives and texts are on all three, structures on
the last two, and enumerations on the second only.
-/

namespace Polyglot

namespace CastKind

variable {t : Ty}

/-- **What a conversion to an object puts into a box**: primitives and texts. -/
theorem decide_object_eq_box_iff : decide (some t) (some .object) = .box ↔ t.isPrimitive ∨ t.isString := by
  have differs (known : t.isPrimitive ∨ t.isString) : t.same .object = false := by
    cases t with
    | primitive p => cases p <;> decide
    | string => decide
    | _ => simp [Ty.isPrimitive, Ty.isString, Ty.primitive?] at known
  constructor
  · intro boxes
    unfold decide at boxes
    dsimp only at boxes
    split at boxes
    · cases boxes
    · split at boxes
      · next held => simpa [Ty.isUntyped] using held
      · -- an object is no primitive and no enumerable, so that only an upcast is left
        split at boxes
        · next absurd => cases absurd
        · split at boxes
          · cases boxes
          · split at boxes <;> cases boxes
  · intro known
    unfold decide
    dsimp only
    rw [differs known, if_neg Bool.false_ne_true, if_pos (by simpa [Ty.isUntyped] using known)]

end CastKind

namespace Text

/-- A word with a mark behind it is no longer word of the same end, unless the mark is in what stands before that one. -/
theorem append_mark_ne {lead : List Char} {mark : Char} (some : lead ≠ []) (foreign : mark ∉ lead) (word u v : List Char) :
    word ++ mark :: u ≠ lead ++ (word ++ v) := by
  -- by the length of the word: a word that starts with the lead has a shorter word behind it
  induction h : word.length using Nat.strongRecOn generalizing word with
  | ind n ih =>
    intro same
    rcases List.append_eq_append_iff.mp same with ⟨rest, rfl, tail⟩ | ⟨rest, rfl, tail⟩
    · cases rest with
      | nil =>
        have : mark :: u = word ++ v := by simpa using tail
        cases word with
        | nil => exact some rfl
        | cons c word =>
          cases this
          exact foreign (by simp)
      | cons c rest =>
        cases tail
        exact foreign (by simp)
    · have shorter : rest.length < n := by
        have := List.length_pos_iff.mpr some
        rw [← h, List.length_append]
        omega
      exact ih rest.length shorter rest rfl (tail.symm.trans (List.append_assoc _ _ _))

end Text

/-- The values of a type are in a box when it is a primitive, a structure, an enumeration or the type of texts. -/
theorem isBoxed_iff (t : Ty) :
    isBoxed (some t) = true ↔ t.isPrimitive ∨ t.isString ∨ t.isDecl .structDecl ∨ t.isDecl .enumDecl := by
  cases t <;> simp [isBoxed, Ty.isValueType, Ty.isPrimitive, Ty.primitive?, Ty.isString]

/-- A declared type is neither a primitive nor the type of texts. -/
theorem not_builtin_of_isDecl {t : Ty} {k : DeclKind} (declared : t.isDecl k = true) : ¬ (t.isPrimitive ∨ t.isString) := by
  cases t with
  | primitive p | string => cases declared
  | _ => simp [Ty.isPrimitive, Ty.primitive?, Ty.isString]

namespace Emit

/-- A test for a box with a value of a type, by the name of the type. -/
def TestsBox (name text : String) : Prop :=
  ∃ x, text = "std::dynamic_pointer_cast<" ++ ("phase::Boxed<" ++ name ++ ">") ++ ">(" ++ x ++ ") != nullptr"

/-- A cast that takes a value of a type out of its box, by the name of the type. -/
def Unboxes (name text : String) : Prop := ∃ x, text = "phase::unbox<" ++ name ++ ">(" ++ x ++ ")"

/-- What a type test writes, where the type is tested by itself or in a box. -/
def cppTest (boxed : Bool) (name x : String) : String :=
  "std::dynamic_pointer_cast<" ++ (if boxed then "phase::Boxed<" ++ name ++ ">" else name) ++ ">(" ++ x ++ ") != nullptr"

theorem testsBox_cppTest_iff (boxed : Bool) (name x : String) : TestsBox name (cppTest boxed name x) ↔ boxed = true := by
  cases boxed with
  | true => exact iff_of_true ⟨x, rfl⟩ rfl
  | false =>
    refine iff_of_false ?_ Bool.false_ne_true
    rintro ⟨y, same⟩
    have foreign : '>' ∉ "phase::Boxed<".toList := by decide
    unfold cppTest at same
    have chars := congrArg String.toList same
    simp only [String.toList_append, List.append_assoc] at chars
    exact Text.append_mark_ne (by decide) foreign name.toList _ _ (List.append_cancel_left chars)

theorem unboxes_of_head {name text : String} {h : Char} (lead : text.toList.head? = some h) (other : h ≠ 'p') :
    ¬ Unboxes name text := by
  rintro ⟨x, rfl⟩
  simp only [String.toList_append] at lead
  exact other (Option.some.inj lead).symm

variable {scene : Scene} {r : Emitter} {e : Expr} {operand : Option Expr} {t : Ty} {x : Rendered} {sheet after : Sheet}

theorem fullName_apply (t : Ty) (scene : Scene) (sheet : Sheet) : fullName (some t) scene sheet =
    (.ok (scene.target.typeName scene.world.index .value t), { sheet with imports := sheet.imports.note true t }) := rfl

theorem typeTest_cpp (cpp : scene.target = .cpp) (bare : e.mark.name = "") (renders : r.value operand scene sheet = (.ok x, after)) :
    ∃ y noted, typeTest r e (some t) operand scene sheet = (.ok y, noted) ∧
      y.text = cppTest (isBoxed (some t)) (Target.cpp.typeName scene.world.index .value t) x.text := by
  unfold typeTest
  rw [bind_ok (a := scene.target) rfl, cpp]
  dsimp only
  rw [if_neg (not_not_intro bare), bind_ok renders, bind_ok (fullName_apply t scene after), cpp]
  exact ⟨_, _, rfl, rfl⟩

theorem cast_cpp (cpp : scene.target = .cpp) (source : staticOf operand = some .object)
    (renders : r.value operand scene sheet = (.ok x, after)) :
    ∃ y noted, cast r e (some t) operand scene sheet = (.ok y, noted) ∧
      (Unboxes (Target.cpp.typeName scene.world.index .value t) y.text ↔
        t.isPrimitive ∨ t.isString ∨ t.isDecl .structDecl) := by
  unfold cast
  rw [bind_ok renders, bind_ok (a := scene.target) rfl, cpp, source]
  dsimp only
  unfold cppCast
  rw [bind_ok (a := ()) rfl]
  dsimp only
  rw [bind_ok (a := scene.target.typeName scene.world.index .value t) rfl, cpp]
  split
  · next held =>
    refine ⟨_, _, rfl, iff_of_true ⟨x.text, rfl⟩ ?_⟩
    simpa [Ty.isUntyped, or_assoc] using held
  · next free =>
    have free : ¬ (t.isPrimitive ∨ t.isString ∨ t.isDecl .structDecl) := by simpa [Ty.isUntyped, or_assoc] using free
    split
    · rw [bind_ok (a := scene) rfl]
      split
      all_goals
        refine ⟨_, _, rfl, iff_of_false (unboxes_of_head (h := 's') ?_ (by decide)) free⟩
        simp [Rendered.settled]
    · refine ⟨_, _, rfl, iff_of_false (unboxes_of_head (h := 's') ?_ (by decide)) free⟩
      simp [cpp, Target.explicitCast, Target.explicitForm, Target.applyForm, Target.typeMarks, Text.replaceMarks,
        Text.replaceFrom, Text.afterChars?]

/-- **A conversion to an object writes a box** where one is decided on, and only there. -/
theorem convert_object_text_iff (idx : TypeIndex) {y : Rendered} (owed : y.mode ≠ .settled) :
    (Target.cpp.convert idx (some t) (some .object) y).text = "phase::box(" ++ y.text ++ ")" ↔
      CastKind.decide (some t) (some .object) = .box := by
  have whole : y.operand Prec.lowest = y.text := if_neg (Nat.not_lt_zero _)
  have boxLead : ("phase::box(" ++ y.text ++ ")").toList.head? = some 'p' := by simp
  unfold Target.convert
  rw [if_neg owed]
  cases kind : CastKind.decide (some t) (some .object) with
  | none =>
    refine iff_of_false (fun same => ?_) (by simp)
    have lengths := congrArg String.length same
    simp only [Target.castForm?, String.length_append] at lengths
    have lead : "phase::box(".length = 11 := by decide
    omega
  | box =>
    refine iff_of_true ?_ rfl
    have length : "\x7bexpr\x7d".length = 6 := by decide
    apply String.toList_injective
    simp [Target.castForm?, Target.applyForm, Target.typeMarks, Text.replaceMarks, Text.replaceFrom, Text.afterChars?, whole,
      length]
  | numeric | upcast =>
    refine iff_of_false (fun same => ?_) (by simp)
    rw [← same] at boxLead
    simp [Target.castForm?, Target.applyForm, Target.typeMarks, Text.replaceMarks, Text.replaceFrom,
      Text.afterChars?] at boxLead

/-- **Boxing, tests and casts agree exactly on the types that are neither structures nor enumerations.** The conversion of a
value to an object writes a box where one is decided on. Where an object is rendered, so are a type test of it and a cast. -/
theorem cpp_boxing_agrees_iff (cpp : scene.target = .cpp) (bare : e.mark.name = "") (source : staticOf operand = some .object)
    (renders : r.value operand scene sheet = (.ok x, after)) :
    (∀ y : Rendered, y.mode ≠ .settled →
      ((Target.cpp.convert scene.world.index (some t) (some .object) y).text = "phase::box(" ++ y.text ++ ")" ↔
        CastKind.decide (some t) (some .object) = .box)) ∧
    ∃ test tested value unboxed,
      typeTest r e (some t) operand scene sheet = (.ok test, tested) ∧
      cast r e (some t) operand scene sheet = (.ok value, unboxed) ∧
      ((CastKind.decide (some t) (some .object) = .box ↔
          TestsBox (Target.cpp.typeName scene.world.index .value t) test.text) ∧
        (TestsBox (Target.cpp.typeName scene.world.index .value t) test.text ↔
          Unboxes (Target.cpp.typeName scene.world.index .value t) value.text) ↔
        t.isDecl .structDecl = false ∧ t.isDecl .enumDecl = false) := by
  refine ⟨fun y => convert_object_text_iff _, ?_⟩
  obtain ⟨test, tested, testRun, testText⟩ := typeTest_cpp (t := t) cpp bare renders
  obtain ⟨value, unboxed, castRun, castText⟩ := cast_cpp (t := t) (e := e) cpp source renders
  refine ⟨test, tested, value, unboxed, testRun, castRun, ?_⟩
  rw [CastKind.decide_object_eq_box_iff, testText, testsBox_cppTest_iff, castText, isBoxed_iff]
  constructor
  · rintro ⟨conversion, -⟩
    refine ⟨Bool.eq_false_iff.mpr fun struct => ?_, Bool.eq_false_iff.mpr fun enum => ?_⟩
    · exact not_builtin_of_isDecl struct (conversion.mpr (.inr (.inr (.inl struct))))
    · exact not_builtin_of_isDecl enum (conversion.mpr (.inr (.inr (.inr enum))))
  · rintro ⟨struct, enum⟩
    simp [struct, enum]

def localObject : Expr :=
  .node { place := {}, symbol := some { kind := .local, name := "o" }, static := some .object } .identifier

/-- A long integer is put into a box, looked for in a box and taken out of one. -/
theorem cpp_boxing_agrees_long :
    (Target.cpp.convert {} (some (.primitive .int64)) (some .object) (.primary "n")).text = "phase::box(n)" ∧
    ∃ test tested value unboxed,
      typeTest (.within 1) localObject (some (.primitive .int64)) (some localObject) (.bare .cpp) (Scene.bare .cpp).blank =
        (.ok test, tested) ∧
      cast (.within 1) localObject (some (.primitive .int64)) (some localObject) (.bare .cpp) (Scene.bare .cpp).blank =
        (.ok value, unboxed) ∧
      TestsBox "std::int64_t" test.text ∧ Unboxes "std::int64_t" value.text := by
  have boxes : CastKind.decide (some (.primitive .int64)) (some .object) = .box := by decide
  obtain ⟨x, after, renders⟩ : ∃ x after,
      (Emitter.within 1).value (some localObject) (.bare .cpp) (Scene.bare .cpp).blank = (.ok x, after) := ⟨_, _, rfl⟩
  obtain ⟨conversion, test, tested, value, unboxed, testRun, castRun, agree⟩ :=
    cpp_boxing_agrees_iff (t := .primitive .int64) (e := localObject) rfl rfl rfl renders
  obtain ⟨testIff, castIff⟩ := agree.mpr ⟨rfl, rfl⟩
  exact ⟨(conversion _ (by decide)).mpr boxes, test, tested, value, unboxed, testRun, castRun, testIff.mp boxes,
    castIff.mp (testIff.mp boxes)⟩

def pointType : Ty := .named { kind := .structDecl, space := "N", name := "Point" }

def colorType : Ty := .named { kind := .enumDecl, space := "N", name := "Color" }

/-- What is written where the value of a local is converted to an object, and where an object is tested for a type and cast
to it. -/
def boxingTexts (t : Ty) : String × Option String × Option String :=
  let scene := Scene.bare .cpp
  let textOf := fun (x : Emit Rendered) => (x.runOn scene).1.toOption.map (·.text)
  ((Target.cpp.convert scene.world.index (some t) (some .object) (.primary "v")).text,
    textOf (typeTest (.within 1) localObject (some t) (some localObject)),
    textOf (cast (.within 1) localObject (some t) (some localObject)))

/-- **Boxing, tests and casts disagree** on structures and enumerations: neither is put into a box, both are looked for in
one, and only a structure is taken out of it. -/
theorem cpp_boxing_disagrees :
    CastKind.decide (some pointType) (some .object) = .none ∧ CastKind.decide (some colorType) (some .object) = .none ∧
    boxingTexts pointType = ("v", some "std::dynamic_pointer_cast<phase::Boxed<N::Point>>(o) != nullptr",
      some "phase::unbox<N::Point>(o)") ∧
    boxingTexts colorType = ("v", some "std::dynamic_pointer_cast<phase::Boxed<N::Color>>(o) != nullptr",
      some "static_cast<N::Color>(o)") := by
  decide +kernel

end Emit

end Polyglot
