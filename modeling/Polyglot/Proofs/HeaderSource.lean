import Polyglot.Prelude
import Polyglot.Proofs.Writing.Pieces

/-!
# Headers and implementations

A class in C++ has a header, which declares its routines, and an implementation, which defines them. Both are taken apart into
*pieces*: what stands in a file is one piece behind the other, and each piece shows at most one routine. So what the header
declares and what the two files define can be compared as lists.
-/

namespace Polyglot

open Text List

/-! ## Routines -/

/-- A routine: a constructor, a method, an operator, or a method that reads or writes a property. -/
structure Routine where
  /-- The type that is returned, with a blank behind it; a constructor has none. -/
  result : String
  name : String
  /-- The parameters, each by its type and its name. -/
  parameters : List String
deriving DecidableEq

/-- The head of a routine: with the class before its name, where it stands outside of it. -/
def Routine.head (r : Routine) (scope : String) (parameters : List String) : String :=
  r.result ++ scope ++ r.name ++ "(" ++ join ", " parameters ++ ")"

/-- What follows a parameter: nothing, or the value that it has when it is left out. -/
def IsDefault (s : String) : Prop := s = "" ∨ ∃ value, s = " = " ++ value

/-- A routine in its class. -/
structure Declared where
  routine : Routine
  modifier : String
  suffix : String
  /-- What follows each of the parameters. -/
  defaults : List String
  fits : defaults.length = routine.parameters.length
  areDefaults : ∀ s ∈ defaults, IsDefault s
  isModifier : modifier ∈ ["", "static ", "virtual "]
  isSuffix : suffix ∈ ["", " = 0", " override"]

def Declared.head (d : Declared) : String :=
  d.modifier ++ d.routine.head "" (zipWith (· ++ ·) d.routine.parameters d.defaults) ++ d.suffix

/-- How a routine stands in a file. -/
structure Standing where
  routine : Routine
  /-- There is a body. -/
  isDefined : Bool := false
  /-- What stands before the name. -/
  scope : String := ""
  /-- The constructor that is called before the body. -/
  chain : Option String := none
deriving DecidableEq

/-- The call of another constructor behind the head of a constructor. -/
def chainText (chain : Option String) (arguments : List String) : String :=
  (chain.map fun name => " : " ++ name ++ "(" ++ join ", " arguments ++ ")").getD ""

/-- A piece of a file. -/
inductive Piece where
  | blank
  /-- The access of what follows. -/
  | access (word : String)
  /-- The type parameters of what follows. -/
  | template (parameters : List String)
  | storage (isStatic : Bool) (type name value : String)
  | destructor (name : String)
  | declared (d : Declared)
  /-- A body in the class. -/
  | inlined (d : Declared) (body : String)
  /-- A body in the class, on one line. -/
  | accessor (d : Declared) (body : String)
  /-- A body outside of the class. -/
  | defined (r : Routine) (scope : String) (chain : Option String) (arguments : List String) (body : String)

namespace Piece

def standing? : Piece → Option Standing
  | declared d => some { routine := d.routine }
  | inlined d _ | accessor d _ => some { routine := d.routine, isDefined := true }
  | defined routine scope chain _ _ => some { routine, isDefined := true, scope, chain }
  | _ => none

def text (scene : Scene) (n : Nat) : Piece → String
  | blank => "\n"
  | access word => Emit.lineAt scene (n - 1) (word ++ ":")
  | template parameters => Emit.linesAt scene n (Emit.cppTemplate parameters)
  | storage isStatic type name value =>
    Emit.lineAt scene n ((if isStatic then "inline static " else "") ++ type ++ " " ++ name ++ value ++ ";")
  | destructor name => Emit.lineAt scene n ("virtual ~" ++ name ++ "() = default;")
  | declared d => Emit.lineAt scene n (d.head ++ ";")
  | inlined d body => Emit.braced scene n d.head body
  | accessor d body => Emit.lineAt scene n (d.head ++ " \x7b " ++ body ++ " \x7d")
  | defined r scope chain arguments body =>
    Emit.braced scene n (r.head scope r.parameters ++ chainText chain arguments) body

end Piece

abbrev Piece.layout (scene : Scene) (n : Nat) : Layout Piece Standing := ⟨Piece.text scene n, Piece.standing?⟩

/-- The text is made of pieces that show some routines, in order. -/
abbrev MadeOf (scene : Scene) (n : Nat) (routines : List Standing) (text : String) : Prop :=
  (Piece.layout scene n).Makes routines text

/-! ## Routines of members -/

def World.heldName (w : World) (t : Option Ty) : String :=
  Target.cpp.typeNameOpt w.index (Target.cpp.ownership t true false) t

def World.passedName (w : World) (t : Option Ty) : String :=
  Target.cpp.typeNameOpt w.index (Target.cpp.ownership t false false) t

def World.parameterType (w : World) (p : Parameter) : String :=
  match p.passing with
  | .byValue => w.passedName (some p.type)
  | .byIn => "const " ++ w.heldName (some p.type) ++ "&"
  | _ => w.heldName (some p.type) ++ "&"

def World.parameterText (w : World) (p : Parameter) : String := w.parameterType p ++ " " ++ Target.cpp.fitted p.name

def TypeDecl.className (d : TypeDecl) (w : World) : String := Target.cpp.declaredName w.index d.head

def World.baseClassOf (w : World) (d : TypeDecl) : Option Ty :=
  (w.hierarchy.supers d.head).base.filter (·.isDecl .classDecl)

def Expr.chainsToBase (chain : Expr) : Bool :=
  match chain.form with
  | .call callee _ _ => callee.kind = .base
  | _ => true

namespace Member

variable (w : World) (d : TypeDecl) (m : Member)

def constructorRoutine : Routine := ⟨"", d.className w, m.symbol.parameters.map w.parameterText⟩

/-- The class itself stands for any scene: the name of a method does not depend on the file. -/
def methodName : String :=
  Scene.symbolName { target := .cpp, world := w, templates := {}, decl := d, artifact := default } m.symbol

def methodRoutine : Routine :=
  ⟨w.heldName (some (m.symbol.type.getD .void)) ++ " ", methodName w d m, m.symbol.parameters.map w.parameterText⟩

def operatorRoutine : Routine :=
  ⟨w.heldName (some (m.symbol.type.getD .void)) ++ " ", "operator" ++ operatorToken m.symbol.name,
    m.symbol.parameters.map w.parameterText⟩

def getterRoutine : Routine := ⟨w.heldName m.symbol.type ++ " ", Target.getter .cpp m.symbol, []⟩

def setterRoutine : Routine :=
  ⟨"void ", Target.setter .cpp m.symbol, [w.passedName m.symbol.type ++ " value"]⟩

/-- The routines that a member has in its class, or right behind it. -/
def shownRoutines : List Standing :=
  match m.kind with
  | .constructor => [{ routine := constructorRoutine w d m }]
  | .method =>
    [{ routine := methodRoutine w d m, isDefined := m.body.isSome && !m.symbol.typeParameters.isEmpty }]
  | .operator => [{ routine := operatorRoutine w m }]
  | .property =>
    if m.symbol.isAbstract || m.isAuto then
      let isDefined := !m.symbol.isAbstract
      { routine := getterRoutine w m, isDefined } ::
        (if m.symbol.isReadOnly then [] else [{ routine := setterRoutine w m, isDefined }])
    else
      (if m.getter.isSome then [{ routine := getterRoutine w m }] else []) ++
        (if m.setter.isSome then [{ routine := setterRoutine w m }] else [])
  | .field | .event => []

variable {w d m}

theorem shownRoutines_abstract (isProperty : m.kind = .property) (abstract : m.symbol.isAbstract = true) :
    m.shownRoutines w d = [{ routine := getterRoutine w m }] ++
      (if !m.symbol.isReadOnly then [{ routine := setterRoutine w m }] else []) := by
  rw [shownRoutines, isProperty]
  cases readOnly : m.symbol.isReadOnly <;> simp [abstract]

theorem shownRoutines_stored (isProperty : m.kind = .property) (concrete : ¬ m.symbol.isAbstract = true)
    (stored : m.isAuto = true) : m.shownRoutines w d = [{ routine := getterRoutine w m, isDefined := true }] ++
      (if !m.symbol.isReadOnly then [{ routine := setterRoutine w m, isDefined := true }] else []) := by
  rw [shownRoutines, isProperty]
  cases readOnly : m.symbol.isReadOnly <;> simp [concrete, stored]

theorem shownRoutines_coded (isProperty : m.kind = .property) (concrete : ¬ m.symbol.isAbstract = true)
    (coded : ¬ m.isAuto = true) : m.shownRoutines w d = (if m.getter.isSome then [{ routine := getterRoutine w m }] else []) ++
      (if m.setter.isSome then [{ routine := setterRoutine w m }] else []) := by
  rw [shownRoutines, isProperty]
  simp [concrete, coded]

variable (w d m)

/-- The constructor that a constructor calls before its body. A call of a base class that is not there is none. -/
def chainTarget? : Option String :=
  m.chain.bind fun chain =>
    if chain.chainsToBase then (w.baseClassOf d).map fun t => Target.cpp.typeNameOpt w.index .value (some t)
    else some (d.className w)

/-- The routines that a member has in the implementation. -/
def outerRoutines : List Standing :=
  let scope := d.className w ++ "::"
  match m.kind with
  | .constructor =>
    if m.body.isSome then
      [{ routine := constructorRoutine w d m, isDefined := true, scope, chain := chainTarget? w d m }]
    else []
  | .method =>
    if m.body.isSome && m.symbol.typeParameters.isEmpty then
      [{ routine := methodRoutine w d m, isDefined := true, scope }]
    else []
  | .operator => if m.body.isSome then [{ routine := operatorRoutine w m, isDefined := true }] else []
  | .property =>
    (if m.getter.isSome then [{ routine := getterRoutine w m, isDefined := true, scope }] else []) ++
      (if m.setter.isSome then [{ routine := setterRoutine w m, isDefined := true, scope }] else [])
  | .field | .event => []

end Member

namespace Emit

variable {r : Emitter} {scene : Scene} {n : Nat} {routines more : List Standing}

abbrev Shows (scene : Scene) (n : Nat) (routines : List Standing) (x : Emit Unit) : Prop :=
  Lays scene n (Piece.layout scene n) routines x

/-! ## Parts of declarations -/

theorem shows_blankLine : Shows scene n [] blankLine := .piece adds_blankLine .blank rfl rfl

theorem shows_section (access : Access) : Shows scene (n + 1) [] (cppSection access) := by
  refine .given keeps_get.yields fun sheet _ => .ite (fun _ => Lays.done) fun _ => ?_
  refine Adds.given (Keeps.yields (.modify ?_)) fun _ _ => ?_
  · exact fun _ => rfl
  refine adds_outdent.andThen ((adds_line _).andThen (adds_indent.mono ?_))
  rintro _ rfl
  rw [String.append_empty]
  exact .piece (Piece.access _)

theorem shows_template (parameters : List String) : Shows scene n [] (lines (cppTemplate parameters)) :=
  .piece (adds_lines _) (.template parameters) rfl rfl

theorem yields_heldName (cpp : scene.target = .cpp) (t : Option Ty) :
    Yields scene (· = scene.world.heldName t) (declaredTypeName t) := by
  have name : Yields scene _ _ := yields_declaredTypeName t false
  rwa [cpp] at name

theorem yields_passedName (cpp : scene.target = .cpp) (t : Option Ty) :
    Yields scene (· = scene.world.passedName t) (usedTypeName t) := by
  have name : Yields scene _ _ := yields_usedTypeName t
  rwa [cpp] at name

def WithDefault (w : World) (p : Parameter) (text : String) : Prop :=
  ∃ value, IsDefault value ∧ text = w.parameterText p ++ value

variable {T : Parameter → String → Prop} {m : Member} {parameters : List Parameter} {w : World}

theorem yields_formalParameters {write : Parameter → String → String → Emit String}
    (each : ∀ p, Yields scene (T p) (do write p (← usedTypeName (some p.type)) (scene.target.fitted p.name))) :
    Yields scene (fun text => ∃ texts, Forall₂ T parameters texts ∧ text = join ", " texts)
      (formalParameters parameters write) := by
  refine YieldsOn.bind (.mapM fun p _ => ?_) fun texts written => .pure ⟨texts, written, rfl⟩
  exact YieldsOn.andThen (.reads (a := scene.target.fitted p.name) fun _ => rfl) (each p)

theorem yields_cppParameters {withDefaults : Bool} (cpp : scene.target = .cpp) (parameters : List Parameter)
    (each : ∀ p, Yields scene (T p) (do
      if withDefaults then
        let value := ((← parameterDefault r p).map (" = " ++ ·)).getD ""
        pure (scene.world.parameterText p ++ value)
      else pure (scene.world.parameterText p))) :
    Yields scene (fun text => ∃ texts, Forall₂ T parameters texts ∧ text = join ", " texts)
      (cppParameters r parameters withDefaults) := by
  refine yields_formalParameters fun p => (yields_passedName cpp _).andThen ?_
  have whole {type : String} (passed : type = scene.world.parameterType p) :
      type ++ " " ++ scene.target.fitted p.name = scene.world.parameterText p := by
    rw [passed, cpp, World.parameterText]
  have each := each p
  cases passing : p.passing
  case' byIn | byRef | byOut => refine (yields_heldName cpp _).andThen ?_
  all_goals
    refine .andThen (.pure rfl) ?_
    dsimp only
    rw [whole (by rw [World.parameterType, passing])]
    exact each

theorem yields_parameters (cpp : scene.target = .cpp) (parameters : List Parameter) :
    Yields scene (· = join ", " (parameters.map scene.world.parameterText)) (cppParameters r parameters false) := by
  refine (yields_cppParameters (T := fun p text => text = scene.world.parameterText p) cpp parameters fun p => ?_).mono ?_
  · exact .pure rfl
  · rintro _ ⟨texts, written, rfl⟩
    have same : texts = parameters.map scene.world.parameterText := by
      induction written with
      | nil => rfl
      | cons here _ ih => rw [here, ih, map_cons]
    rw [same]

theorem exists_defaults {texts : List String} (written : Forall₂ (WithDefault w) parameters texts) :
    ∃ defaults : List String, defaults.length = parameters.length ∧ (∀ s ∈ defaults, IsDefault s) ∧
      texts = zipWith (· ++ ·) (parameters.map w.parameterText) defaults := by
  induction written with
  | nil => exact ⟨[], rfl, nofun, rfl⟩
  | cons here _ ih =>
    obtain ⟨value, isDefault, rfl⟩ := here
    obtain ⟨defaults, length, areDefaults, rfl⟩ := ih
    exact ⟨value :: defaults, congrArg (· + 1) length, forall_mem_cons.mpr ⟨isDefault, areDefaults⟩, rfl⟩

theorem yields_parametersWithDefaults (parts : r.Disciplined) (cpp : scene.target = .cpp) (parameters : List Parameter) :
    Yields scene (fun text => ∃ defaults : List String, defaults.length = parameters.length ∧ (∀ s ∈ defaults, IsDefault s) ∧
        text = join ", " (zipWith (· ++ ·) (parameters.map scene.world.parameterText) defaults))
      (cppParameters r parameters true) := by
  refine (yields_cppParameters (T := WithDefault scene.world) cpp parameters fun p => ?_).mono ?_
  · refine YieldsOn.bind (silent_parameterDefault parts p).yields fun value _ => .pure ⟨_, ?_, rfl⟩
    cases value with
    | none => exact .inl rfl
    | some value => exact .inr ⟨value, rfl⟩
  · rintro _ ⟨texts, written, rfl⟩
    obtain ⟨defaults, length, areDefaults, rfl⟩ := exists_defaults written
    exact ⟨defaults, length, areDefaults, rfl⟩

/-! ## Members -/

variable (s : Symbol) (inInterface : Bool)

theorem cppModifier_mem : cppModifier s inInterface ∈ ["", "static ", "virtual "] := by
  unfold cppModifier
  split
  · decide
  · split <;> decide

theorem cppSuffix_mem : cppSuffix s inInterface ∈ ["", " = 0", " override"] := by
  unfold cppSuffix
  split
  · decide
  · split
    · decide
    · split <;> decide

def declaredAs (s : Symbol) (routine : Routine) (defaults : List String)
    (fits : defaults.length = routine.parameters.length) (areDefaults : ∀ s ∈ defaults, IsDefault s) : Declared where
  routine := routine
  modifier := cppModifier s false
  suffix := cppSuffix s false
  defaults := defaults
  fits := fits
  areDefaults := areDefaults
  isModifier := cppModifier_mem s false
  isSuffix := cppSuffix_mem s false

/-- A method that reads or writes a property, in its class. -/
def declaredAccessor (s : Symbol) (routine : Routine) : Declared :=
  declaredAs s routine (routine.parameters.map fun _ => "") (length_map _) (by simp [IsDefault])

theorem zipWith_noDefaults (parameters : List String) :
    zipWith (· ++ ·) parameters (parameters.map fun _ => "") = parameters := by
  induction parameters with
  | nil => rfl
  | cons p parameters ih => rw [map_cons, zipWith_cons_cons, ih, String.append_empty]

theorem declaredAccessor_head (routine : Routine) :
    (declaredAccessor s routine).head = cppModifier s false ++ routine.head "" routine.parameters ++ cppSuffix s false :=
  congrArg (fun parameters => cppModifier s false ++ routine.head "" parameters ++ cppSuffix s false)
    (zipWith_noDefaults routine.parameters)

theorem shows_declared (d : Declared) {head : String} (same : head = d.head) :
    Shows scene n [{ routine := d.routine }] (line (head ++ ";")) :=
  .piece (adds_line _) (.declared d) (by rw [same]; rfl) rfl

theorem shows_accessor (d : Declared) (body : String) :
    Shows scene n [{ routine := d.routine, isDefined := true }] (line (d.head ++ " \x7b " ++ body ++ " \x7d")) :=
  .piece (adds_line _) (.accessor d body) rfl rfl

theorem shows_storage (isStatic : Bool) (type name value : String) :
    Shows scene n [] (line ((if isStatic then "inline static " else "") ++ type ++ " " ++ name ++ value ++ ";")) :=
  .piece (adds_line _) (.storage isStatic type name value) rfl rfl

theorem head_ne_empty (d : Declared) : d.head ≠ "" := by
  intro empty
  have chars := congrArg String.toList empty
  simp [Declared.head, Routine.head] at chars

section

variable (tidy : r.Tidy)
include tidy

/-- A head with its body, or by itself. -/
theorem shows_inline (d : Declared) (isInline : Bool) (body : Option Stmt) {head : String} (same : head = d.head) :
    Shows scene n [{ routine := d.routine, isDefined := isInline }] (cppInline r isInline head body) := by
  cases isInline with
  | false => exact shows_declared d same
  | true =>
    rw [same]
    refine (adds_bodyBlock tidy (head_ne_empty d) body []).mono ?_
    rintro _ ⟨inside, rfl⟩
    exact Layout.Makes.piece (Piece.inlined d _)

/-- The variable of a stored property. -/
theorem shows_backing (m : Member) (type : String) : Shows scene (n + 1) [] (do
    cppSection .private
    let value ← initialValue r m
    line ((if m.symbol.isStatic then "inline static " else "") ++ type ++ " " ++ backingField m.symbol ++ " = " ++ value ++
      ";")) := by
  refine (shows_section _).behind (.given (silent_initialValue tidy.parts m).yields fun value _ => ?_)
  have storage : Shows scene (n + 1) _ _ := shows_storage m.symbol.isStatic type (backingField m.symbol)
    (" = " ++ value)
  rwa [← String.append_assoc] at storage

theorem shows_property (cpp : scene.target = .cpp) (isProperty : m.kind = .property) :
    Shows scene 1 (m.shownRoutines scene.world scene.decl) (cppProperty r m false false) := by
  have getter : cppModifier m.symbol false ++ scene.world.heldName m.symbol.type ++ " " ++ Target.getter .cpp m.symbol ++
      "()" ++ cppSuffix m.symbol false = (declaredAccessor m.symbol (m.getterRoutine scene.world)).head := by
    rw [declaredAccessor_head]
    simp [Routine.head, Member.getterRoutine, join, String.append_assoc]
  have setter : cppModifier m.symbol false ++ "void " ++ Target.setter .cpp m.symbol ++ "(" ++
      scene.world.passedName m.symbol.type ++ " value)" ++ cppSuffix m.symbol false =
        (declaredAccessor m.symbol (m.setterRoutine scene.world)).head := by
    rw [declaredAccessor_head]
    simp [Routine.head, Member.setterRoutine, join, String.append_assoc]
  unfold cppProperty
  dsimp only
  refine Adds.ite (fun _ => .fails fun sheet => ⟨_, rfl⟩) fun _ => ?_
  refine (shows_section _).behind (.given (yields_heldName cpp _) ?_)
  rintro _ rfl
  refine .given (yields_passedName cpp _) ?_
  rintro _ rfl
  rw [getter, setter]
  refine Adds.ite (fun abstract => ?_) fun concrete => Adds.ite (fun stored => ?_) fun coded => ?_
  · rw [Member.shownRoutines_abstract isProperty (by simpa using abstract)]
    exact (shows_declared _ rfl).bind (Lays.ite (fun _ => shows_declared _ rfl) fun _ => Lays.done)
  · rw [Member.shownRoutines_stored isProperty (by simpa using concrete) stored]
    have reads (head field : String) : head ++ " \x7b return " ++ field ++ "; \x7d" =
        head ++ " \x7b " ++ ("return " ++ field ++ ";") ++ " \x7d" := by
      rw [show " \x7b return " = " \x7b " ++ "return " by decide, show "; \x7d" = ";" ++ " \x7d" by decide]
      simp only [String.append_assoc]
    have writes (head field : String) : head ++ " \x7b " ++ field ++ " = value; \x7d" =
        head ++ " \x7b " ++ (field ++ " = value;") ++ " \x7d" := by
      rw [show " = value; \x7d" = " = value;" ++ " \x7d" by decide]
      simp only [String.append_assoc]
    rw [reads, writes]
    refine (shows_accessor _ _).bind (Lays.ite (fun _ => ?_) fun _ => shows_backing tidy m _)
    exact (shows_accessor _ _).before (shows_backing tidy m _)
  · rw [Member.shownRoutines_coded isProperty (by simpa using concrete) coded]
    exact Lays.when (shows_declared _ rfl) (Lays.ite (fun _ => shows_declared _ rfl) fun _ => Lays.done)

theorem shows_field (m : Member) (name : String) : Shows scene (n + 1) [] (cppField r m name) := by
  refine (shows_section _).behind (.given (keeps_declaredTypeName _ _).yields fun type _ => ?_)
  refine Adds.ite (fun _ => ?_) fun _ => ?_
  · exact .given (silent_initialValue tidy.parts m).yields fun value _ => shows_storage _ _ _ _
  · exact shows_storage _ _ _ _

theorem shows_constructor (cpp : scene.target = .cpp) (isConstructor : m.kind = .constructor) :
    Shows scene 1 (m.shownRoutines scene.world scene.decl) (cppConstructor r m false) := by
  refine Adds.ite (fun _ => .fails fun sheet => ⟨_, rfl⟩) fun _ => ?_
  refine (shows_section _).behind (.given (yields_parametersWithDefaults tidy.parts cpp _) ?_)
  rintro _ ⟨defaults, length, areDefaults, rfl⟩
  refine .reads (fun _ => rfl) (.reads (declaredName_apply _) ?_)
  rw [Member.shownRoutines, isConstructor]
  let declared : Declared :=
    { routine := m.constructorRoutine scene.world scene.decl, modifier := "", suffix := "", defaults, areDefaults
      fits := length.trans (length_map _).symm, isModifier := by decide, isSuffix := by decide }
  refine shows_declared declared ?_
  simp [declared, Declared.head, Routine.head, Member.constructorRoutine, TypeDecl.className, cpp]

theorem shows_method (cpp : scene.target = .cpp) (isMethod : m.kind = .method) :
    Shows scene 1 (m.shownRoutines scene.world scene.decl) (cppMethod r m (scene.symbolName m.symbol) false false) := by
  have name : scene.symbolName m.symbol = m.methodName scene.world scene.decl := by
    rw [Member.methodName, Scene.symbolName, Scene.symbolName, cpp]
  refine (shows_section _).behind (.given (yields_parametersWithDefaults tidy.parts cpp _) ?_)
  rintro _ ⟨defaults, length, areDefaults, rfl⟩
  refine (shows_template _).behind (.given (yields_heldName cpp _) ?_)
  rintro _ rfl
  rw [Member.shownRoutines, isMethod, name]
  let declared := declaredAs m.symbol (m.methodRoutine scene.world scene.decl) defaults
    (length.trans (length_map _).symm) areDefaults
  refine shows_inline tidy declared _ _ ?_
  simp [declared, declaredAs, Declared.head, Routine.head, Member.methodRoutine, String.append_assoc]

theorem shows_member (cpp : scene.target = .cpp) (plain : scene.decl.isGeneric = false)
    (isType : scene.decl.head.kind ≠ .interfaceDecl) (inside : m.kind ≠ .operator) :
    Shows scene 1 (m.shownRoutines scene.world scene.decl) (cppMember r m) := by
  refine .reads (fun _ => rfl) (.reads (fun _ => rfl) ?_)
  rw [plain, decide_eq_false isType]
  cases kind : m.kind with
  | field | event =>
    rw [Member.shownRoutines, kind]
    exact shows_field tidy m _
  | property => exact shows_property tidy cpp kind
  | constructor => exact shows_constructor tidy cpp kind
  | method => exact shows_method tidy cpp kind
  | operator => exact absurd kind inside

omit tidy in
theorem shows_operator (cpp : scene.target = .cpp) (plain : scene.decl.isGeneric = false) (isOperator : m.kind = .operator) :
    Shows scene 0 (m.shownRoutines scene.world scene.decl) (cppOperator r m) := by
  refine .reads (fun _ => rfl) (.given (yields_parameters cpp _) ?_)
  rintro _ rfl
  refine .given (yields_heldName cpp _) ?_
  rintro _ rfl
  refine shows_blankLine.behind ?_
  rw [plain, Member.shownRoutines, isOperator]
  let declared : Declared :=
    { routine := m.operatorRoutine scene.world, modifier := "", suffix := ""
      defaults := (m.operatorRoutine scene.world).parameters.map fun _ => ""
      fits := length_map _, areDefaults := by simp [IsDefault], isModifier := by decide, isSuffix := by decide }
  refine shows_declared declared ?_
  rw [Declared.head, zipWith_noDefaults, Routine.head, show " operator" = " " ++ "operator" by decide]
  simp only [declared, Member.operatorRoutine, String.append_assoc, String.empty_append, String.append_empty]

/-! ## Classes -/

/-- The routines between the braces of a class. -/
def innerRoutines (w : World) (d : TypeDecl) : List Standing :=
  d.members.flatMap fun m => if m.kind = .operator then [] else m.shownRoutines w d

/-- The routines right behind a class. -/
def operatorRoutines (w : World) (d : TypeDecl) : List Standing :=
  (d.membersOf [.operator]).flatMap fun m => m.shownRoutines w d

/-- A class: its head, its pieces in braces, and its operators behind it. -/
def IsClass (scene : Scene) (text : String) : Prop :=
  ∃ head inside behind, text = opening scene 0 head ++ inside ++ lineAt scene 0 "\x7d;" ++ behind ∧
    MadeOf scene 1 (innerRoutines scene.world scene.decl) inside ∧
    MadeOf scene 0 (operatorRoutines scene.world scene.decl) behind

theorem shows_members (cpp : scene.target = .cpp) (plain : scene.decl.isGeneric = false)
    (isType : scene.decl.head.kind ≠ .interfaceDecl) :
    Shows scene 1 (innerRoutines scene.world scene.decl) (scene.decl.withPrevious.forM fun (previous, m) => do
      if m.kind ≠ .operator then
        if isSeparated previous m then blankLine
        inMember m (cppMember r m)) := by
  have all : innerRoutines scene.world scene.decl = scene.decl.withPrevious.flatMap fun row =>
      if row.2.kind = .operator then [] else row.2.shownRoutines scene.world scene.decl := by
    rw [innerRoutines, ← TypeDecl.map_snd_withPrevious, flatMap_map]
  rw [all]
  refine .forM fun (previous, m) _ => ?_
  dsimp only
  by_cases isOperator : m.kind = .operator
  · rw [if_pos isOperator, if_neg (not_not.mpr isOperator)]
    exact .done
  · rw [if_neg isOperator, if_pos isOperator]
    have member : Shows scene 1 (m.shownRoutines scene.world scene.decl) (inMember m (cppMember r m)) :=
      Adds.inMember (by apply shows_member tidy <;> assumption) m
    exact Adds.ite (fun _ => shows_blankLine.behind member) fun _ => member

omit tidy in
theorem silent_cppSupers : Silent cppSupers := by
  refine keeps_read.bind fun scene => ?_
  cases scene.baseClass
  case' some t => refine (keeps_fullName _).bind fun _ => ?_
  all_goals exact (Keeps.pure _).bind fun base =>
    (Keeps.mapM (fun t => (keeps_fullName _).bind fun _ => .pure _) _).bind fun _ => .pure _

theorem adds_cppClass (cpp : scene.target = .cpp) (plain : scene.decl.isGeneric = false)
    (isType : scene.decl.head.kind ≠ .interfaceDecl) (name : String) : Adds scene 0 0 (IsClass scene) (cppClass r name) := by
  have ends : Adds scene 0 0 (MadeOf scene 0 (operatorRoutines scene.world scene.decl))
      ((scene.decl.membersOf [.operator]).forM (cppOperator r)) := by
    refine Lays.forM fun m hm => shows_operator cpp plain ?_
    simpa using (mem_filter.mp hm).2
  have closes {inside : String} (made : MadeOf scene 1 (innerRoutines scene.world scene.decl) inside) (head : String) :
      Adds scene 1 0 (fun rest => IsClass scene (linesAt scene 0 [] ++ (opening scene 0 head ++ (inside ++ rest)))) (do
        closeBlock
        write ";"
        endLine
        (scene.decl.membersOf [.operator]).forM (cppOperator r)) := by
    refine .closingSemicolon (ends.mono fun behind operators => ⟨head, inside, behind, ?_, made, operators⟩)
    rw [show linesAt scene 0 [] = "" from rfl, String.empty_append]
    simp only [String.append_assoc]
  have parameters : scene.decl.head.params = [] := by
    simpa [TypeDecl.isGeneric, TypeHead.arity] using plain
  refine .reads (fun _ => rfl) (.given silent_cppSupers.yields fun supers _ => ?_)
  rw [parameters]
  dsimp only
  have some (words supers : String) : (if scene.decl.head.kind = .structDecl then "struct " else "class ") ++ words ++
      supers ≠ "" := by
    split <;> simp
  generalize head : (if scene.decl.head.kind = .structDecl then "struct " else "class ") ++ name ++
    (if supers.isEmpty then "" else " : " ++ join ", " supers) = text
  refine (adds_lines []).andThen ((adds_openBlock (head ▸ some name _)).andThen ?_)
  refine .given (Keeps.yields (.modify ?_)) fun _ _ => ?_
  · exact fun _ => rfl
  refine Adds.bind (shows_members tidy cpp plain isType) fun inside made => .reads (fun _ => rfl) ?_
  refine .ite (fun _ => ?_) fun _ => closes made _
  -- A class without a base declares its destructor behind its members.
  refine Adds.bind (shows_section (n := 0) .public) fun access madeAccess => (adds_line _).andThen ?_
  have more := (made.append madeAccess).append (.piece (Piece.destructor name))
  rw [show (Piece.destructor name).standing?.toList = [] from rfl, append_nil, append_nil] at more
  refine (closes more text).mono fun rest whole => ?_
  rwa [String.append_assoc, String.append_assoc] at whole

/-! ## Implementations -/

omit tidy in
theorem yields_chainCall (parts : r.Disciplined) (chain : Expr) :
    Yields scene (fun call => call.1 = chain.chainsToBase) (chainCall r chain) := by
  unfold chainCall Expr.chainsToBase
  cases chain.form
  all_goals
    cases chain.symbol with
    | none => exact (keeps_remark chain).yields.bind fun _ _ => (silent_plainArguments parts _).yields.bind fun _ _ => .pure rfl
    | some s => exact (silent_arguments parts _ _ _ _).yields.bind fun _ _ => .pure rfl

omit tidy in
theorem yields_cppChain (parts : r.Disciplined) (cpp : scene.target = .cpp) (m : Member) :
    Yields scene (fun text => ∃ arguments, text = chainText (m.chainTarget? scene.world scene.decl) arguments)
      (cppChain r m) := by
  unfold cppChain Member.chainTarget?
  cases m.chain with
  | none => exact .pure ⟨[], rfl⟩
  | some chain =>
    refine (yields_chainCall parts chain).bind ?_
    rintro ⟨isBase, args⟩ rfl
    rw [Option.bind_some]
    cases chain.chainsToBase with
    | true =>
      refine YieldsOn.andThen (.reads (a := scene) fun _ => rfl) ?_
      rw [show scene.baseClass = scene.world.baseClassOf scene.decl from rfl]
      cases scene.world.baseClassOf scene.decl with
      | none => exact .pure ⟨args, rfl⟩
      | some t => exact YieldsOn.andThen (.reads fun _ => rfl) (.pure ⟨args, by rw [cpp]; rfl⟩)
    | false =>
      refine YieldsOn.andThen (.reads (a := scene.decl) fun _ => rfl) (YieldsOn.andThen (.reads (declaredName_apply _)) ?_)
      exact .pure ⟨args, by rw [cpp]; rfl⟩

theorem shows_defined (routine : Routine) (scope : String) (chain : Option String) (arguments : List String)
    (body : Option Stmt) : Shows scene n [{ routine, isDefined := true, scope, chain }]
      (bodyBlock r (routine.head scope routine.parameters ++ chainText chain arguments) body) := by
  have some : routine.head scope routine.parameters ++ chainText chain arguments ≠ "" := by
    simp [Routine.head]
  refine (adds_bodyBlock tidy some body []).mono ?_
  rintro _ ⟨inside, rfl⟩
  exact Layout.Makes.piece (Piece.defined routine scope chain arguments _)

/-- The definition of a routine that calls no other constructor. -/
theorem shows_plainlyDefined (routine : Routine) (scope : String) (body : Option Stmt) {head : String}
    (same : head = routine.head scope routine.parameters) :
    Shows scene n [{ routine, isDefined := true, scope }] (bodyBlock r head body) := by
  have whole : Shows scene n _ _ := shows_defined tidy routine scope none [] body
  rwa [show chainText none [] = "" from rfl, String.append_empty, ← same] at whole

theorem shows_definition (cpp : scene.target = .cpp) (defined : hasDefinition m = true) :
    Shows scene 0 (m.outerRoutines scene.world scene.decl) (cppDefinition r m) := by
  have owner : scene.target.declaredName scene.world.index scene.decl.head = scene.decl.className scene.world := by
    rw [cpp, TypeDecl.className]
  have name : scene.symbolName m.symbol = m.methodName scene.world scene.decl := by
    rw [Member.methodName, Scene.symbolName, Scene.symbolName, cpp]
  refine .reads (fun _ => rfl) (.reads (declaredName_apply _) ?_)
  rw [owner]
  unfold Member.outerRoutines
  cases kind : m.kind with
  | field | event => cases (by rwa [hasDefinition, kind] at defined : false = true)
  | constructor =>
    have body : m.body.isSome = true := by rwa [hasDefinition, kind] at defined
    dsimp only
    rw [if_pos body]
    refine .given (yields_parameters cpp _) ?_
    rintro _ rfl
    refine .given (yields_cppChain tidy.parts cpp m) ?_
    rintro _ ⟨arguments, rfl⟩
    have whole : Shows scene 0 _ _ := shows_defined tidy (m.constructorRoutine scene.world scene.decl)
      (scene.decl.className scene.world ++ "::") (m.chainTarget? scene.world scene.decl) arguments m.body
    rwa [Routine.head] at whole
  | method =>
    have body : m.body.isSome = true := by rwa [hasDefinition, kind] at defined
    dsimp only
    rw [body, Bool.true_and]
    by_cases simple : m.symbol.typeParameters.isEmpty = true
    · rw [if_pos simple, if_neg (by simp [simple])]
      refine .given (yields_parameters cpp _) ?_
      rintro _ rfl
      refine .given (yields_heldName cpp _) ?_
      rintro _ rfl
      refine .reads (fun _ => rfl) (shows_plainlyDefined tidy _ _ _ ?_)
      rw [name, Routine.head, Member.methodRoutine, ← String.append_assoc]
    · rw [if_neg simple, if_pos (by simp [simple])]
      exact Lays.done
  | operator =>
    have body : m.body.isSome = true := by rwa [hasDefinition, kind] at defined
    rw [if_pos body]
    refine .given (yields_parameters cpp _) ?_
    rintro _ rfl
    refine .given (yields_heldName cpp _) ?_
    rintro _ rfl
    refine shows_plainlyDefined tidy _ _ _ ?_
    rw [Routine.head, Member.operatorRoutine, show " operator" = " " ++ "operator" by decide]
    simp only [String.append_assoc, String.empty_append]
  | property =>
    refine .given (yields_heldName cpp _) ?_
    rintro _ rfl
    refine .given (yields_passedName cpp _) ?_
    rintro _ rfl
    refine Lays.when (shows_plainlyDefined tidy _ _ _ ?_) (Lays.ite (fun _ => ?_) fun _ => Lays.done)
    · simp [Routine.head, Member.getterRoutine, join, String.append_assoc]
    · refine Adds.ite (fun _ => shows_blankLine.behind ?_) fun _ => ?_
      all_goals
        refine shows_plainlyDefined tidy _ _ _ ?_
        simp [Routine.head, Member.setterRoutine, join, String.append_assoc]

theorem shows_definitions (cpp : scene.target = .cpp) (isFirst : Bool) {members : List Member}
    (defined : ∀ m ∈ members, hasDefinition m = true) :
    Shows scene 0 (members.flatMap (·.outerRoutines scene.world scene.decl)) (cppDefinitions r isFirst members) := by
  induction members generalizing isFirst with
  | nil => exact Lays.done
  | cons m rest ih =>
    obtain ⟨here, others⟩ := forall_mem_cons.mp defined
    have member : Shows scene 0 (m.outerRoutines scene.world scene.decl) (inMember m (cppDefinition r m)) :=
      Adds.inMember (by apply shows_definition tidy <;> assumption) m
    cases isFirst with
    | true => exact member.bind (ih false others)
    | false => exact shows_blankLine.behind (member.bind (ih false others))

end

/-- A member without a definition has no routines in the implementation. -/
theorem outerRoutines_eq_nil {d : TypeDecl} (none : hasDefinition m = false) : m.outerRoutines w d = [] := by
  unfold hasDefinition at none
  unfold Member.outerRoutines
  cases kind : m.kind <;> simp_all

theorem flatMap_outerRoutines (w : World) (d : TypeDecl) (members : List Member) :
    (members.filter hasDefinition).flatMap (·.outerRoutines w d) = members.flatMap (·.outerRoutines w d) := by
  induction members with
  | nil => rfl
  | cons m rest ih =>
    cases defined : hasDefinition m with
    | true => rw [filter_cons_of_pos defined, flatMap_cons, flatMap_cons, ih]
    | false =>
      rw [filter_cons_of_neg (by simp [defined]), flatMap_cons, outerRoutines_eq_nil defined, ih, nil_append]

/-! ## Files -/

def inNamespace (scene : Scene) (text : String) : String :=
  let space := Target.namespaceName .cpp scene.decl.space
  if space = "" then text
  else lineAt scene 0 ("namespace " ++ space ++ " \x7b") ++ "\n" ++ text ++ "\n" ++
    lineAt scene 0 ("\x7d // namespace " ++ space)

theorem adds_cppNamespace {P : String → Prop} {x : Emit Unit} (inside : Adds scene 0 0 P x) :
    Adds scene 0 0 (fun text => ∃ inner, P inner ∧ text = inNamespace scene inner) (cppNamespace x) := by
  refine .reads (fun _ => rfl) ?_
  unfold inNamespace
  refine .ite (fun none => ?_) fun named => ?_
  · exact inside.mono fun text here => ⟨text, here, by rw [if_pos none]⟩
  · refine (adds_line _).andThen (adds_blankLine.andThen (inside.bind fun inner here => adds_blankLine.andThen ?_))
    refine (adds_line _).mono ?_
    rintro _ rfl
    exact ⟨inner, here, by rw [if_neg named]; simp only [String.append_assoc]⟩

theorem adds_cppDeclaration (tidy : r.Tidy) (cpp : scene.target = .cpp) (plain : scene.decl.isGeneric = false)
    (isClass : scene.decl.head.kind = .classDecl ∨ scene.decl.head.kind = .structDecl) :
    Adds scene 0 0 (IsClass scene) (cppDeclaration r) := by
  refine .reads (fun _ => rfl) (.reads (declaredName_apply _) ?_)
  have isType : scene.decl.head.kind ≠ .interfaceDecl := by
    rcases isClass with h | h <;> simp [h]
  rcases isClass with h | h
  all_goals
    rw [h]
    exact adds_cppClass tidy cpp plain isType _

/-! ## Heads of files -/

/-- A line before the declaration, in a file whose bodies require some lines. -/
inductive IsHeadLine (required : List String) : String → Prop
  | blank : IsHeadLine required ""
  | pragma : IsHeadLine required "#pragma once"
  | include (path : String) : IsHeadLine required (includeLine path)
  | announced (name : String) : IsHeadLine required ("class " ++ name ++ ";")
  | announcedIn (space name : String) :
    IsHeadLine required ("namespace " ++ space ++ " \x7b " ++ ("class " ++ name ++ ";") ++ " \x7d")
  | required {line : String} (h : line ∈ required) : IsHeadLine required line

section Heads

variable {α β : Type} {required : List String} {R : α → Prop} {S : β → Prop}

/-- A success gives a value with a property and adds lines of a head, in a state with the required lines. -/
def AddsHead (scene : Scene) (required : List String) (R : α → Prop) (x : Emit α) : Prop :=
  ∀ sheet sheet' : Sheet, ∀ a, sheet.writer.AtLine scene.target.dialect.indent 0 → sheet.requirements = required →
    x scene sheet = (.ok a, sheet') → R a ∧ sheet'.requirements = required ∧
      ∃ ls, (∀ l ∈ ls, IsHeadLine required l) ∧ sheet'.writer = sheet.writer.extended 0 (linesAt scene 0 ls)

namespace AddsHead

variable {f : α → Emit β} {x : Emit α}

theorem reads (read : ∀ sheet : Sheet, sheet.requirements = required → ∃ a, R a ∧ x scene sheet = (.ok a, sheet)) :
    AddsHead scene required R x := by
  intro sheet sheet' b start here run
  obtain ⟨a, ha, same⟩ := read sheet here
  rw [same] at run
  cases run
  exact ⟨ha, here, [], nofun, (Writer.extended_empty start).symm⟩

theorem pure {a : α} (h : R a) : AddsHead scene required R (Pure.pure a) := .reads fun _ _ => ⟨a, h, rfl⟩

theorem bind (first : AddsHead scene required R x) (next : ∀ a, R a → AddsHead scene required S (f a)) :
    AddsHead scene required S (x >>= f) := by
  intro sheet sheet' b start here run
  obtain ⟨a, inner, one, two⟩ := bind_eq_ok run
  obtain ⟨ha, kept, ls, areLines, wrote⟩ := first sheet inner a start here one
  obtain ⟨hb, kept', ls', areLines', wrote'⟩ := next a ha inner sheet' b (wrote ▸ start.extended _) kept two
  refine ⟨hb, kept', ls ++ ls', forall_mem_append.mpr ⟨areLines, areLines'⟩, ?_⟩
  rw [wrote', wrote, Writer.extended_extended, linesAt, linesAt, linesAt, linesOn, linesOn, linesOn,
    map_append, String.join_append]

theorem mapM (each : ∀ a, AddsHead scene required S (f a)) (l : List α) :
    AddsHead scene required (fun bs => ∀ b ∈ bs, S b) (l.mapM f) := by
  induction l with
  | nil => exact .pure nofun
  | cons a l ih =>
    rw [mapM_cons]
    exact (each a).bind fun b hb => ih.bind fun bs hbs => .pure (forall_mem_cons.mpr ⟨hb, hbs⟩)

end AddsHead

theorem addsHead_requirements : AddsHead scene required (fun ls => ∀ l ∈ ls, IsHeadLine required l) requirements :=
  .reads fun _ here => ⟨_, fun _ hl => .required (here ▸ mem_mergeSort.mp hl), rfl⟩

theorem addsHead_cppInclude? (h : TypeHead) :
    AddsHead scene required (fun line => ∀ l ∈ line, IsHeadLine required l) (cppInclude? h) := by
  unfold cppInclude?
  split
  · exact .pure nofun
  · refine .bind (.reads (R := fun _ => True) fun _ _ => ⟨_, trivial, rfl⟩) fun path _ => .pure ?_
    rintro _ ⟨⟩
    exact .include _

theorem addsHead_cppForward? (h : TypeHead) :
    AddsHead scene required (fun line => ∀ l ∈ line, IsHeadLine required l) (cppForward? h) := by
  unfold cppForward?
  dsimp only
  split
  · refine .bind (.reads (R := fun _ => True) fun _ _ => ⟨_, trivial, rfl⟩) fun name _ => .pure ?_
    rintro _ ⟨⟩
    split
    · exact .announced _
    · exact .announcedIn _ _
  · exact .pure nofun

theorem addsHead_cppHeaderImport (i : Import) :
    AddsHead scene required (fun entry => (∀ l ∈ entry.1, IsHeadLine required l) ∧ ∀ l ∈ entry.2, IsHeadLine required l)
      (cppHeaderImport i) := by
  have included : AddsHead scene required
      (fun entry => (∀ l ∈ entry.1, IsHeadLine required l) ∧ ∀ l ∈ entry.2, IsHeadLine required l)
      (do pure (← cppInclude? i.head, none)) :=
    (addsHead_cppInclude? i.head).bind fun _ isLine => .pure ⟨isLine, nofun⟩
  unfold cppHeaderImport
  split
  · exact included
  · refine (addsHead_cppForward? i.head).bind fun forward isLine => ?_
    cases forward with
    | none => exact included
    | some line => exact .pure ⟨nofun, isLine⟩

theorem addsHead_line {l : String} (isLine : IsHeadLine required l) : AddsHead scene required (fun _ => True) (line l) := by
  intro sheet sheet' _ start here run
  obtain ⟨_, rfl, wrote⟩ := adds_line l sheet sheet' start run
  cases run
  refine ⟨trivial, here, [l], forall_mem_singleton.mpr isLine, wrote.trans ?_⟩
  rw [linesAt, linesOn_cons, lineAt, show linesOn _ _ [] = "" from rfl, String.append_empty]

theorem addsHead_blankLine : AddsHead scene required (fun _ => True) blankLine := by
  intro sheet sheet' _ start here run
  obtain ⟨_, rfl, wrote⟩ := adds_blankLine sheet sheet' start run
  cases run
  exact ⟨trivial, here, [""], forall_mem_singleton.mpr .blank, wrote⟩

theorem addsHead_lines {ls : List String} (areLines : ∀ l ∈ ls, IsHeadLine required l) :
    AddsHead scene required (fun _ => True) (lines ls) := by
  induction ls with
  | nil => exact .pure trivial
  | cons l ls ih =>
    obtain ⟨here, others⟩ := forall_mem_cons.mp areLines
    exact (addsHead_line here).bind fun _ _ => ih others

theorem isHeadLine_of_mem {f : α → Option String} {entries : List α}
    (areLines : ∀ e ∈ entries, ∀ l ∈ f e, IsHeadLine required l) : ∀ l ∈ entries.filterMap f, IsHeadLine required l := by
  intro l hl
  obtain ⟨e, he, some⟩ := mem_filterMap.mp hl
  exact areLines e he l some

theorem addsHead_cppHeaderHead : AddsHead scene required (fun _ => True) cppHeaderHead := by
  refine (addsHead_line .pragma).bind fun _ _ => addsHead_blankLine.bind fun _ _ => (addsHead_line (.include _)).bind ?_
  refine fun _ _ => .bind (.reads (R := fun _ => True) fun _ _ => ⟨_, trivial, rfl⟩) fun imports _ => ?_
  refine .bind (.mapM addsHead_cppHeaderImport _) fun entries areLines => addsHead_requirements.bind fun _ required => ?_
  have included := isHeadLine_of_mem (f := Prod.fst) fun e he => (areLines e he).1
  have forwards := isHeadLine_of_mem (f := Prod.snd) fun e he => (areLines e he).2
  refine (addsHead_lines (forall_mem_append.mpr ⟨included, required⟩)).bind fun _ _ => addsHead_blankLine.bind fun _ _ => ?_
  refine (addsHead_lines forwards).bind fun _ _ => ?_
  split
  · exact addsHead_blankLine
  · exact .pure trivial

theorem addsHead_cppSourceHead : AddsHead scene required (fun _ => True) cppSourceHead := by
  refine .bind (.reads (R := fun _ => True) fun _ _ => ⟨_, trivial, rfl⟩) fun d _ => ?_
  refine .bind (.reads (R := fun _ => True) fun _ _ => ⟨_, trivial, rfl⟩) fun path _ => (addsHead_line (.include _)).bind ?_
  refine fun _ _ => .bind (.reads (R := fun _ => True) fun _ _ => ⟨_, trivial, rfl⟩) fun imports _ => ?_
  refine .bind (.mapM (fun _ => addsHead_cppInclude? _) _) fun includes areLines => addsHead_requirements.bind ?_
  intro _ required
  have included := isHeadLine_of_mem (f := id) areLines
  exact (addsHead_lines (forall_mem_append.mpr ⟨included, required⟩)).bind fun _ _ => addsHead_blankLine

end Heads

/-- A file in C++: lines of a head, and something inside a namespace. -/
def IsCppFile (scene : Scene) (IsBody : String → Prop) (text : String) : Prop :=
  ∃ sheet lines body, artifactFile.runOn scene = (.ok (), sheet) ∧
    text = linesAt scene 0 lines ++ inNamespace scene body ∧ (∀ l ∈ lines, IsHeadLine sheet.requirements l) ∧ IsBody body

end Emit

/-! ## Definitions -/

namespace Member

variable (w : World) (d : TypeDecl) (m : Member)

/-- The routines of a member in the two files. -/
def routines : List Standing := m.shownRoutines w d ++ m.outerRoutines w d

/-- The definitions of a member in the two files: its routines, and whether another constructor is called. -/
def definitions : List (Routine × Bool) :=
  ((m.routines w d).filter (·.isDefined)).map fun s => (s.routine, s.chain.isSome)

/-- Constructors are never abstract. -/
def IsConcrete : Prop := m.kind = .constructor ∨ m.symbol.isAbstract = false

instance : Decidable m.IsConcrete := inferInstanceAs (Decidable (_ ∨ _))

/-- The routines that a concrete member has to define, and whether another constructor has to be called. -/
def neededRoutines : List (Routine × Bool) :=
  match m.kind with
  | .constructor => [(constructorRoutine w d m, m.chain.isSome)]
  | .method => if m.body.isSome then [(methodRoutine w d m, false)] else []
  | .operator => if m.body.isSome then [(operatorRoutine w m, false)] else []
  | .property => (m.shownRoutines w d).map fun s => (s.routine, false)
  | .field | .event => []

/-- A constructor has a body, and the base class whose constructor it calls. -/
def IsComplete : Prop :=
  m.kind = .constructor → m.body.isSome ∧ (m.chain.isSome → (m.chainTarget? w d).isSome)

instance : Decidable (m.IsComplete w d) := inferInstanceAs (Decidable (_ → _))

variable {w d m}

theorem definitions_constructor (isConstructor : m.kind = .constructor) :
    m.definitions w d = m.neededRoutines w d ↔ m.IsComplete w d := by
  have chained : (m.chainTarget? w d).isSome = true → m.chain.isSome = true := by
    unfold chainTarget?
    cases m.chain with
    | none => exact id
    | some _ => exact fun _ => rfl
  rw [definitions, routines, shownRoutines, outerRoutines, neededRoutines, IsComplete, isConstructor]
  cases m.body.isSome with
  | false => simp
  | true =>
    cases here : (m.chainTarget? w d).isSome <;> cases there : m.chain.isSome <;> simp_all

theorem definitions_property (isProperty : m.kind = .property) (concrete : m.symbol.isAbstract = false) :
    m.definitions w d = m.neededRoutines w d := by
  have isConcrete : ¬ m.symbol.isAbstract = true := by simp [concrete]
  rw [definitions, routines, outerRoutines, neededRoutines, isProperty]
  by_cases stored : m.isAuto = true
  · have bare : m.getter = none ∧ m.setter = none := by
      simpa [isAuto, isProperty] using stored
    rw [shownRoutines_stored isProperty isConcrete stored, bare.1, bare.2]
    cases m.symbol.isReadOnly <;> rfl
  · rw [shownRoutines_coded isProperty isConcrete stored]
    cases m.getter.isSome <;> cases m.setter.isSome <;> rfl

/-- **What a concrete member has to define, it defines**, unless it is a constructor without a body, or one that calls a
constructor of a base class that is not there. -/
theorem definitions_eq_iff (concrete : m.IsConcrete) : m.definitions w d = m.neededRoutines w d ↔ m.IsComplete w d := by
  by_cases isConstructor : m.kind = .constructor
  · exact definitions_constructor isConstructor
  · have isComplete : m.IsComplete w d := fun h => absurd h isConstructor
    refine iff_of_true ?_ isComplete
    have concrete := concrete.resolve_left isConstructor
    by_cases isProperty : m.kind = .property
    · exact definitions_property isProperty concrete
    · rw [definitions, routines, shownRoutines, outerRoutines, neededRoutines]
      cases kind : m.kind with
      | constructor => exact absurd kind isConstructor
      | property => exact absurd kind isProperty
      | method => cases m.body.isSome <;> cases m.symbol.typeParameters.isEmpty <;> rfl
      | operator => cases m.body.isSome <;> rfl
      | field | event => rfl

/-- No routine has to be defined twice for one member. -/
theorem nodup_neededRoutines : ((m.neededRoutines w d).map Prod.fst).Nodup := by
  have accessors : getterRoutine w m ≠ setterRoutine w m := by
    simp [getterRoutine, setterRoutine]
  unfold neededRoutines
  cases kind : m.kind with
  | constructor => exact nodup_singleton _
  | method | operator => cases m.body.isSome <;> simp
  | property =>
    rw [shownRoutines, kind]
    cases m.symbol.isAbstract || m.isAuto
    · cases m.getter.isSome <;> cases m.setter.isSome <;> simp [accessors]
    · cases m.symbol.isReadOnly <;> simp [accessors]
  | field | event => exact nodup_nil

end Member

namespace TypeDecl

variable (w : World) (d : TypeDecl)

/-- The routines in the header. -/
def headerRoutines : List Standing := Emit.innerRoutines w d ++ Emit.operatorRoutines w d

/-- The routines in the implementation. -/
def sourceRoutines : List Standing := d.members.flatMap (·.outerRoutines w d)

/-- The definitions of a routine in the two files: whether each of them calls another constructor. -/
def definitionsOf (routine : Routine) : List Bool :=
  ((d.headerRoutines w ++ d.sourceRoutines w).filter fun s => s.routine = routine && s.isDefined).map (·.chain.isSome)

/-- No two members have a routine in common. -/
def HasDistinctRoutines : Prop :=
  d.members.Pairwise fun m o => ∀ s ∈ m.routines w d, ∀ t ∈ o.routines w d, s.routine ≠ t.routine

instance : Decidable (d.HasDistinctRoutines w) := inferInstanceAs (Decidable (List.Pairwise _ _))

variable {w d}

theorem headerRoutines_perm : (d.headerRoutines w).Perm (d.members.flatMap (·.shownRoutines w d)) := by
  have operators : Emit.operatorRoutines w d =
      d.members.flatMap fun m => if m.kind = .operator then m.shownRoutines w d else [] := by
    rw [Emit.operatorRoutines, TypeDecl.membersOf]
    generalize d.members = members
    induction members with
    | nil => rfl
    | cons m rest ih =>
      rw [flatMap_cons, ← ih]
      by_cases isOperator : m.kind = .operator
      · rw [filter_cons_of_pos (by simp [isOperator]), flatMap_cons, if_pos isOperator]
      · rw [filter_cons_of_neg (by simp [isOperator]), if_neg isOperator, nil_append]
  rw [headerRoutines, operators]
  refine (flatMap_append_perm _ _ _).trans (.of_eq ?_)
  congr 1
  funext m
  split <;> simp

theorem files_perm : (d.headerRoutines w ++ d.sourceRoutines w).Perm (d.members.flatMap (·.routines w d)) :=
  (headerRoutines_perm.append_right _).trans (flatMap_append_perm _ _ _)

/-- **Definitions are there once**: with routines that belong to one member each, a concrete member defines what it has to,
and nothing else in the two files does. -/
theorem definitionsOf_eq_singleton (distinct : d.HasDistinctRoutines w) {m : Member} (hm : m ∈ d.members)
    (concrete : m.IsConcrete) (complete : m.IsComplete w d) {x : Routine × Bool} (hx : x ∈ m.neededRoutines w d) :
    d.definitionsOf w x.1 = [x.2] := by
  have own : m.definitions w d = m.neededRoutines w d := (Member.definitions_eq_iff concrete).mpr complete
  obtain ⟨s, hs, rfl⟩ := mem_map.mp (own ▸ hx)
  obtain ⟨mem, isDefined⟩ := mem_filter.mp hs
  let isIt : Standing → Bool := fun t => t.routine = s.routine && t.isDefined
  have alone : (d.members.flatMap (·.routines w d)).filter isIt = (m.routines w d).filter isIt := by
    refine filter_flatMap_of_pairwise (distinct.imp fun apart a ha b hb both => ?_) hm ⟨s, mem, ?_⟩
    · simp only [isIt, Bool.and_eq_true, decide_eq_true_eq] at both
      exact apart a ha b hb (both.1.1.trans both.2.1.symm)
    · simp [isIt, isDefined]
  have members : ((m.routines w d).filter isIt).map (·.chain.isSome) =
      ((m.definitions w d).filter (·.1 = s.routine)).map Prod.snd := by
    rw [Member.definitions, filter_map, map_map, filter_filter]
    rfl
  have once := filter_key_eq_singleton Member.nodup_neededRoutines hx
  refine perm_singleton.mp (((files_perm.filter isIt).map _).trans (.of_eq ?_))
  rw [alone, members, own, once]
  rfl

end TypeDecl

namespace Compilation

open Emit

variable {options : Options} {c : Compilation} {d : TypeDecl}

theorem isCppFile_of_isFile {P : String → Prop} {a : Artifact} {o : Output}
    (head : ∀ required, AddsHead (fileScene options c .cpp d a) required (fun _ => True) (fileHead (fileScene options c .cpp d a)))
    (body : Adds (fileScene options c .cpp d a) 0 0 (fun text => ∃ inner, P inner ∧
      text = inNamespace (fileScene options c .cpp d a) inner)
      (fileBody (fileScene options c .cpp d a).emitter (fileScene options c .cpp d a)))
    (file : IsFile (fileScene options c .cpp d) a o) : IsCppFile (fileScene options c .cpp d a) P o.text := by
  obtain ⟨-, sheet, run, text⟩ := file
  have front : Leaves (fileScene options c .cpp d a) (fun _ required front =>
      ∃ lines, front = linesAt (fileScene options c .cpp d a) 0 lines ∧ ∀ l ∈ lines, IsHeadLine required l)
      (fileHead (fileScene options c .cpp d a)) := by
    intro sheet sheet' start run
    obtain ⟨-, kept, lines, areLines, wrote⟩ := head sheet.requirements sheet sheet' () start rfl run
    rw [wrote]
    exact ⟨_, ⟨lines, rfl, kept ▸ areLines⟩, Writer.extends_extended _ 0 _, rfl⟩
  obtain ⟨_, _, ⟨lines, rfl, areLines⟩, ⟨inner, isBody, rfl⟩, whole⟩ := text_artifactFile body.leaves front run
  exact ⟨sheet, lines, inner, run, text.trans whole, areLines, isBody⟩

theorem shows_sourceRoutines {r : Emitter} {scene : Scene} (tidy : r.Tidy) (cpp : scene.target = .cpp) :
    Shows scene 0 (scene.decl.sourceRoutines scene.world)
      (cppDefinitions r true (scene.decl.members.filter hasDefinition)) := by
  rw [TypeDecl.sourceRoutines, ← flatMap_outerRoutines]
  exact shows_definitions tidy cpp true fun m hm => (mem_filter.mp hm).2

/-- The header of a class. -/
def headerScene (options : Options) (c : Compilation) (d : TypeDecl) : Scene :=
  fileScene options c .cpp d ⟨.declaration, Target.cpp.artifactPath c.world.index d.head .declaration⟩

/-- The implementation of a class without type parameters. -/
def sourceScene (options : Options) (c : Compilation) (d : TypeDecl) : Scene :=
  fileScene options c .cpp d ⟨.definition, Target.cpp.artifactPath c.world.index d.head .definition⟩

/-- **Headers and implementations agree**, but for constructors. The header and the implementation of a class without type
parameters are made of the routines of its members. A concrete member defines what it has to if and only if it is no
constructor without a body, and none that calls a constructor of a base class that is not there. When all do, and no two
members have a routine in common, each routine is defined once in the two files. -/
theorem cpp_routines_defined_once_iff (plain : d.head.arity = 0)
    (isClass : d.head.kind = .classDecl ∨ d.head.kind = .structDecl)
    (succeeds : (emitUnit options c .cpp d).failure = none) (full : options.isCheck = false) :
    (∃ header source, (emitUnit options c .cpp d).outputs = [header, source] ∧
      IsCppFile (headerScene options c d) (IsClass (headerScene options c d)) header.text ∧
      IsCppFile (sourceScene options c d) (MadeOf (sourceScene options c d) 0 (d.sourceRoutines c.world)) source.text) ∧
    (∀ m ∈ d.members, m.IsConcrete →
      (m.definitions c.world d = m.neededRoutines c.world d ↔ m.IsComplete c.world d)) ∧
    (d.HasDistinctRoutines c.world → ∀ m ∈ d.members, m.IsConcrete → m.IsComplete c.world d →
      ∀ x ∈ m.neededRoutines c.world d, d.definitionsOf c.world x.1 = [x.2]) := by
  refine ⟨?_, fun m _ => Member.definitions_eq_iff, fun distinct m hm concrete complete x =>
    TypeDecl.definitionsOf_eq_singleton distinct hm concrete complete⟩
  have generic : d.isGeneric = false := by simp [TypeDecl.isGeneric, plain]
  have files : Target.cpp.artifacts c.world.index d.head =
      [(headerScene options c d).artifact, (sourceScene options c d).artifact] := by
    rw [Target.artifacts]
    rw [if_pos (by simpa [plain] using isClass)]
    rfl
  have written := forall₂_outputs succeeds full
  rw [files] at written
  obtain ⟨header, _, isHeader, rest, whole⟩ := forall₂_cons_left_iff.mp written
  obtain ⟨source, _, isSource, none, rfl⟩ := forall₂_cons_left_iff.mp rest
  rw [forall₂_nil_left_iff.mp none] at whole
  refine ⟨header, source, whole, ?_, ?_⟩
  · refine isCppFile_of_isFile (fun _ => addsHead_cppHeaderHead) (adds_cppNamespace ?_) isHeader
    exact adds_cppDeclaration (Emitter.within_tidy _) rfl generic isClass
  · refine isCppFile_of_isFile (fun _ => addsHead_cppSourceHead) (adds_cppNamespace ?_) isSource
    exact shows_sourceRoutines (Emitter.within_tidy _) rfl

def cppOnly : Options := { targets := [.cpp], templates := {} }

def baseDraft : TypeDraft :=
  { kind := "class", name := "N.Base"
    members := [some { kind := "constructor", parameters := [some { name := "n", type := "int" }]
                       body := some { kind := "block" } }] }

/-- A constructor that hands its number on to the base class. -/
def chainedDraft (body : Option Draft) : MemberDraft :=
  { kind := "constructor", parameters := [some { name := "m", type := "int" }]
    chain := some { args := [some { kind := "identifier", name := "m" }] }, body }

def subDraft : TypeDraft :=
  { kind := "class", name := "N.Sub", base := "N.Base"
    members := [some (chainedDraft (some { kind := "block" })),
      some { kind := "method", name := "Run", body := some { kind := "block" } },
      some { kind := "method", name := "Keep", typeParameters := ["T"], body := some { kind := "block" } },
      some { kind := "property", name := "Size", type := "int" }] }

/-- The routines of the class, with the one that calls another constructor. -/
def subRoutines : List (Routine × Bool) :=
  [(⟨"", "Sub", ["std::int32_t m"]⟩, true), (⟨"void ", "Run", []⟩, false), (⟨"void ", "Keep", []⟩, false),
    (⟨"std::int32_t ", "get_Size", []⟩, false), (⟨"void ", "set_Size", ["std::int32_t value"]⟩, false)]

/-- Members of all kinds are defined once, in one of the two files. -/
theorem cpp_routines_defined_once_sub : ∃ c d header source,
    ofDocument Prelude.types "" { types := [some baseDraft, some subDraft] } = .ok c ∧ d ∈ c.types ∧
    (emitUnit cppOnly c .cpp d).outputs = [header, source] ∧
    IsCppFile (sourceScene cppOnly c d) (MadeOf (sourceScene cppOnly c d) 0 (d.sourceRoutines c.world)) source.text ∧
    ∀ x ∈ subRoutines, d.definitionsOf c.world x.1 = [x.2] := by
  have loaded : (ofDocument Prelude.types "" { types := [some baseDraft, some subDraft] }).toOption.any (fun c => decide (
      ∃ d ∈ c.types, d.head.arity = 0 ∧ d.head.kind = .classDecl ∧ (emitUnit cppOnly c .cpp d).failure = none ∧
        d.HasDistinctRoutines c.world ∧ (∀ m ∈ d.members, m.IsConcrete ∧ m.IsComplete c.world d) ∧
        ∀ x ∈ subRoutines, ∃ m ∈ d.members, x ∈ m.neededRoutines c.world d)) = true := by
    decide +kernel
  obtain ⟨c, load, found⟩ := exists_ok_of_any loaded
  obtain ⟨d, hd, plain, isClass, succeeds, distinct, fits, needed⟩ := of_decide_eq_true found
  obtain ⟨⟨header, source, outputs, -, isSource⟩, -, once⟩ :=
    cpp_routines_defined_once_iff plain (.inl isClass) succeeds rfl
  refine ⟨c, d, header, source, load, hd, outputs, isSource, fun x hx => ?_⟩
  obtain ⟨m, hm, isNeeded⟩ := needed x hx
  exact once distinct m hm (fits m hm).1 (fits m hm).2 x isNeeded

/-- A class with a constructor without a body. -/
def bareDraft : TypeDraft :=
  { kind := "class", name := "N.Sub", base := "N.Base", members := [some (chainedDraft none)] }

def bareFiles : List String :=
  ["#pragma once\n\n#include \"phase/runtime.h\"\n#include \"N/Base.h\"\n\nnamespace N \x7b\n\n" ++
      "class Sub : public N::Base \x7b\n    Sub(std::int32_t m);\n\x7d;\n\n\x7d // namespace N\n",
    "#include \"N/Sub.h\"\n\nnamespace N \x7b\n\n\n\x7d // namespace N\n"]

/-- **Not all constructors are defined**: one without a body is declared in the header, and stands nowhere else. -/
theorem cpp_constructor_undefined_bare : ∃ c d,
    ofDocument Prelude.types "" { types := [some baseDraft, some bareDraft] } = .ok c ∧ d ∈ c.types ∧
    (emitUnit cppOnly c .cpp d).failure = none ∧ (emitUnit cppOnly c .cpp d).outputs.map (·.text) = bareFiles ∧
    (∃ m ∈ d.members, (⟨"", "Sub", ["std::int32_t m"]⟩, true) ∈ m.neededRoutines c.world d) ∧
    d.definitionsOf c.world ⟨"", "Sub", ["std::int32_t m"]⟩ = [] :=
  exists_mem_ok_of_decide (by decide +kernel)

end Compilation

end Polyglot
