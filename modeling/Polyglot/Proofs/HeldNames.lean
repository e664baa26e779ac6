import Polyglot.Target.Cast

/-!
# Ownership acts on the outside only

How a reference is held shows in the name of its type as something around it: a name is the name of the type by itself, put
into what the target writes for the way of holding. What stands inside a type is not touched: at every depth, elements of
arrays and type arguments are written the way they are declared.
-/

namespace Polyglot

open List

/-- A type whose values are never held by a pointer. -/
def Ty.isUnheld : Ty → Bool
  | .primitive _ | .string | .dynamic | .void | .param _ => true
  | .named h | .closed h _ _ _ => h.kind = .enumDecl || h.kind = .structDecl || h.kind = .delegateDecl
  | .array _ | .object | .null => false

namespace Target

/-- The name of a type put into what the target writes for a way of holding it. Rust marks a trait that is held by a
pointer. -/
def heldName (t : Target) (own : Ownership) (type : Ty) (name : String) : String :=
  t.hold own (if t = rust ∧ type.isDecl .interfaceDecl ∧ own ≠ .value then "dyn " ++ name else name)

/-- The name of a type in a way of holding it, made from its name by itself. -/
def outside (t : Target) (own : Ownership) (type : Ty) (name : String) : String :=
  if t.collectsGarbage || type.isUnheld then name else t.heldName own type name

variable {t : Target} {idx : TypeIndex} {own : Ownership}

/-! ## The outside -/

theorem hold_value (name : String) : t.hold .value name = name := by
  cases t <;> rfl

theorem hold_of_collectsGarbage (collects : t.collectsGarbage = true) (name : String) : t.hold own name = name := by
  cases t with
  | cpp | rust => cases collects
  | _ => cases own <;> rfl

theorem ne_rust_of_collectsGarbage (collects : t.collectsGarbage = true) : t ≠ rust := by
  rintro rfl
  cases collects

/-- A type that may be held by a pointer, and that is no interface. -/
theorem hold_eq_outside {type : Ty} (held : type.isUnheld = false) (plain : type.isDecl .interfaceDecl = false)
    (name : String) : t.hold own name = t.outside own type name := by
  by_cases collects : t.collectsGarbage = true
  · rw [hold_of_collectsGarbage collects, outside, collects, Bool.true_or, if_pos rfl]
  · simp [outside, heldName, held, plain, collects]

/-- The kind of a declaration says how its name is put into what holds it. -/
theorem holdNamed_eq_outside {type : Ty} {h : TypeHead} (head : type.head? = some h) (name : String) :
    t.holdNamed own h.kind name = t.outside own type name := by
  have unheld : type.isUnheld = (h.kind = .enumDecl || h.kind = .structDecl || h.kind = .delegateDecl) := by
    cases type <;> cases head <;> rfl
  have decl : type.isDecl .interfaceDecl = (h.kind == .interfaceDecl) := by
    rw [Ty.isDecl, Ty.declKind?, head]
    rfl
  cases kind : h.kind with
  | enumDecl | structDecl | delegateDecl => simp [holdNamed, outside, unheld, kind]
  | classDecl => exact hold_eq_outside (by simp [unheld, kind]) (by simp [decl, kind]) name
  | interfaceDecl =>
    by_cases collects : t.collectsGarbage = true
    · simp [holdNamed, outside, collects, hold_of_collectsGarbage, ne_rust_of_collectsGarbage]
    · simp [holdNamed, outside, heldName, collects, unheld, decl, kind]

theorem holdNamed_value (kind : DeclKind) (name : String) : t.holdNamed .value kind name = name := by
  cases kind <;> simp [holdNamed, hold_value]

variable (type : Ty)

/-- The name of a type in a way of holding it is its name by itself, put into what holds it. -/
theorem typeName_eq_outside : t.typeName idx own type = t.outside own type (t.typeName idx .value type) := by
  cases type with
  | array e | object | null =>
    exact hold_eq_outside rfl rfl _
  | named h | closed h args base interfaces =>
    simp only [typeName, holdNamed_value]
    exact holdNamed_eq_outside rfl _
  | _ => simp [typeName, outside, Ty.isUnheld]

/-- A reference is declared in a shared pointer, unless it is held by itself. -/
theorem outside_declared {type : Ty} (reference : type.isUnheld = true ∨ type.isReferenceType = true) (name : String) :
    t.outside (t.declared type) type name = t.outside .sharedDeclaration type name := by
  unfold outside
  split
  · rfl
  · next held =>
    obtain ⟨collects, held⟩ := Bool.or_eq_false_iff.mp (Bool.eq_false_iff.mpr held)
    have reference : type.isReferenceType = true := reference.resolve_left (by simp [held])
    have direct : type.isHeldDirectly = false := by
      cases type <;> simp_all [Ty.isUnheld, Ty.isHeldDirectly, Ty.isDecl, Ty.declKind?, Ty.head?, Ty.isValueType]
    simp [declared, ownership, collects, direct, reference]

/-! ## The inside -/

theorem argumentNames_eq_map (types : List Ty) : t.argumentNames idx types = types.map (t.argumentName idx) := by
  induction types with
  | nil => rw [argumentNames, map_nil]
  | cons type types ih => cases type <;> simp only [argumentNames, argumentName, map_cons, ih]

/-- A place inside a type: the element of an array, or one of the arguments of a definition. -/
inductive Place where
  | element
  | argument (head : TypeHead) (before after : List Ty) (base : Option Ty) (interfaces : List Ty)

namespace Place

def fill : Place → Ty → Ty
  | element, e => .array e
  | argument h before after base interfaces, e => .closed h (before ++ e :: after) base interfaces

/-- Places one inside the other, from the outside in, with a type at the innermost of them. -/
def fillAll (places : List Place) (e : Ty) : Ty := places.foldr fill e

/-- What is written at a place for the type that stands there: its name the way it is declared, and for a primitive
type among arguments its boxed name. -/
def written (t : Target) (idx : TypeIndex) : Place → Ty → String
  | argument _ _ _ _ _, .primitive p => t.boxedPrimitive p
  | _, e => t.typeName idx (t.declared e) e

/-- The name of a type by itself, around what is written at a place of it. -/
def around (t : Target) (idx : TypeIndex) : Place → String → String
  | element, text => t.arrayOf text
  | argument h before after _ _, text =>
    t.referredName idx h ++ argumentList (before.map (t.argumentName idx) ++ text :: after.map (t.argumentName idx))

/-- A type with a place in it, where it is declared: in a shared pointer, unless it is a delegate or a value. -/
def declaredIn (t : Target) : Place → String → String
  | element, text => t.hold .sharedDeclaration text
  | argument h _ _ _ _, text => t.holdNamed .sharedDeclaration h.kind text

/-- What is written for places one inside the other, from the outside in. -/
def aroundAll (t : Target) (idx : TypeIndex) (places : List Place) (text : String) : String :=
  places.foldr (fun p text => p.declaredIn t (p.around t idx text)) text

variable (p : Place)

theorem written_argument (h : TypeHead) (before after : List Ty) (base : Option Ty) (interfaces : List Ty) (e : Ty) :
    (argument h before after base interfaces).written t idx e = t.argumentName idx e := by
  cases e <;> rfl

theorem typeName_fill (e : Ty) : t.typeName idx .value (p.fill e) = p.around t idx (p.written t idx e) := by
  cases p with
  | element => simp only [fill, typeName, hold_value, around, written]
  | argument h before after base interfaces =>
    rw [fill, typeName, holdNamed_value, around, written_argument, argumentNames_eq_map, map_append, map_cons]

/-- How a type with a place in it is held does not depend on what stands there. -/
theorem outside_declared_fill (e : Ty) (name : String) :
    t.outside (t.declared (p.fill e)) (p.fill e) name = p.declaredIn t name := by
  cases p with
  | element => exact (outside_declared (.inr rfl) name).trans (hold_eq_outside rfl rfl name).symm
  | argument h before after base interfaces =>
    have reference : (fill (argument h before after base interfaces) e).isUnheld = true ∨
        (fill (argument h before after base interfaces) e).isReferenceType = true := by
      obtain ⟨kind, space, name, params, rename⟩ := h
      cases kind
      · exact .inr rfl
      · exact .inr rfl
      all_goals exact .inl rfl
    rw [outside_declared reference]
    exact (holdNamed_eq_outside rfl name).symm

/-- What is written for a type with a place in it, wherever it stands. -/
theorem written_fill (q : Place) (e : Ty) :
    p.written t idx (q.fill e) = q.declaredIn t (q.around t idx (q.written t idx e)) := by
  have whole : p.written t idx (q.fill e) = t.typeName idx (t.declared (q.fill e)) (q.fill e) := by
    cases p <;> cases q <;> rfl
  rw [whole, typeName_eq_outside, outside_declared_fill, typeName_fill]

/-- **Every place inside a type**, at any depth: what is written there is what is written for the type that stands
there. -/
theorem written_fillAll (places : List Place) (e : Ty) : p.written t idx (fillAll places e) =
      aroundAll t idx places (((p :: places).getLast (cons_ne_nil _ _)).written t idx e) := by
  induction places generalizing p with
  | nil => rfl
  | cons q places ih =>
    have step : fillAll (q :: places) e = q.fill (fillAll places e) := rfl
    rw [step, written_fill, ih q]
    rfl

end Place

/-- The names without a namespace and without arguments are held in the same way. -/
theorem bareName_eq_outside : t.bareName idx own type = t.outside own type (t.bareName idx .value type) := by
  cases type with
  | named h | closed h args base interfaces =>
    simp only [bareName, holdNamed_value]
    exact holdNamed_eq_outside rfl _
  | _ => exact typeName_eq_outside _

theorem openName_eq_outside : t.openName idx own type = t.outside own type (t.openName idx .value type) := by
  unfold openName
  split
  · next h head =>
    rw [holdNamed_value]
    exact holdNamed_eq_outside head _
  · exact typeName_eq_outside type

/-- **Ownership acts on the outside only.** In each way of holding it, the name of a type is its name by itself where
the target collects garbage or the type is never held by a pointer, or is unknown; else it is that name put into what
the target writes for the way of holding. So are its names without a namespace and without arguments. At every place
inside, however deep, there stands what is written for the type at that place, and around it nothing depends on the
way of holding but what is outside of all. -/
theorem ownership_outside (t : Target) (idx : TypeIndex) (own : Ownership) :
    (∀ type : Ty, t.typeName idx own type =
        if t.collectsGarbage || type.isUnheld then t.typeName idx .value type
        else t.heldName own type (t.typeName idx .value type)) ∧
      t.typeNameOpt idx own none = t.typeNameOpt idx .value none ∧
      (∀ type : Ty, t.bareName idx own type = t.outside own type (t.bareName idx .value type) ∧
        t.openName idx own type = t.outside own type (t.openName idx .value type)) ∧
      ∀ (p : Place) (places : List Place) (e : Ty),
        t.typeName idx own (Place.fillAll (p :: places) e) =
          t.outside own (Place.fillAll (p :: places) e)
            (p.around t idx (Place.aroundAll t idx places
              (((p :: places).getLast (cons_ne_nil _ _)).written t idx e))) := by
  refine ⟨typeName_eq_outside, rfl, fun type => ⟨bareName_eq_outside type, openName_eq_outside type⟩, fun p places e => ?_⟩
  have step : Place.fillAll (p :: places) e = p.fill (Place.fillAll places e) := rfl
  rw [typeName_eq_outside, step, Place.typeName_fill, Place.written_fillAll]

example : cpp.typeName {} .weakUsage (.array (.array (.named ⟨.classDecl, "Geometry", "Point", [], ""⟩))) =
    "std::shared_ptr<std::vector<std::shared_ptr<std::vector<std::shared_ptr<Geometry::Point>>>>>" := by decide

end Target

end Polyglot
