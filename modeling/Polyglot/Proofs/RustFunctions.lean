import Polyglot.Proofs.Writing.Pieces

/-!
# Functions in Rust

A class or a structure becomes a structure with blocks of functions behind it: one of its own, and one for every interface. What
stands in a block are the functions of some members, in order, and nothing else.
-/

namespace Polyglot

open List

/-! ## Functions -/

/-- The head of a function. -/
structure RustFunction where
  isPublic : Bool := false
  name : String
  bounds : List String := []
  parameters : String
  result : String

def RustFunction.head (f : RustFunction) : String :=
  (if f.isPublic then "pub " else "") ++ "fn " ++ f.name ++ Emit.rustBounds f.bounds ++ "(" ++ f.parameters ++ ")" ++ f.result

theorem RustFunction.head_ne_empty (f : RustFunction) : f.head ≠ "" := by
  intro empty
  have chars := congrArg String.toList empty
  simp [RustFunction.head] at chars

/-- A piece of a block. -/
inductive RustPiece where
  | blank
  | function (f : RustFunction) (body : String)

namespace RustPiece

def name? : RustPiece → Option String
  | blank => none
  | function f _ => some f.name

def text (scene : Scene) (n : Nat) : RustPiece → String
  | blank => "\n"
  | function f body => Emit.braced scene n f.head body

abbrev layout (scene : Scene) (n : Nat) : Layout RustPiece String := ⟨text scene n, name?⟩

end RustPiece

/-! ## Functions of members -/

/-- Where the names of a member come from: its kind, and its name. -/
abbrev Origin := SymbolKind × String

namespace Member

def origin (m : Member) : Origin := (m.symbol.kind, m.symbol.name)

/-- The functions of a member. In the block of an interface a property that is only read can be written too. -/
def rustFunctions (w : World) (isInherent : Bool) (m : Member) : List String :=
  match m.kind with
  | .constructor => ["new" ++ w.overloadSuffix m.symbol, "init" ++ w.overloadSuffix m.symbol]
  | .property =>
    if m.isAuto then
      Target.getter .rust m.symbol ::
        (if !m.symbol.isReadOnly || !isInherent then [Target.setter .rust m.symbol] else [])
    else
      (if m.getter.isSome then [Target.getter .rust m.symbol] else []) ++
        (if m.setter.isSome then [Target.setter .rust m.symbol] else [])
  | .method => [Target.rust.fitted m.symbol.name ++ w.overloadSuffix m.symbol]
  | .operator => [m.symbol.name]
  | .field | .event => []

end Member

/-- A block of functions, with the member that each comes from. -/
abbrev RustBlock := List (Origin × List String)

namespace RustBlock

/-- The names of the functions in a block. -/
def functions (block : RustBlock) : List String := block.flatMap Prod.snd

def ofMembers (w : World) (isInherent : Bool) (members : List Member) : RustBlock :=
  members.map fun m => (m.origin, m.rustFunctions w isInherent)

end RustBlock

namespace TypeDecl

variable (w : World) (d : TypeDecl)

def interfacesIn : List Ty := (w.hierarchy.supers d.head).interfaces

/-- The members in the block of the type itself. -/
def inherentMembers : List Member :=
  d.members.filter fun m => m.kind ≠ .field && !(Emit.interfaceNames w (d.interfacesIn w) d).contains m.symbol.name

/-- The members in the block of an interface. -/
def membersFor (t : Ty) : List Member := d.members.filter fun m => m.kind ≠ .field && Emit.implements w t m.symbol

/-- The block of the type itself. A type without a constructor gets one. -/
def inherentBlock : RustBlock :=
  (if (d.membersOf [.constructor]).isEmpty then
    [((.constructor, ".ctor"), ["new" ++ w.overloadSuffix (Emit.implicitConstructor d)])] else []) ++
  RustBlock.ofMembers w true (d.inherentMembers w)

/-- The block of the type itself, and one for each interface. -/
def rustBlocks : List RustBlock :=
  d.inherentBlock w :: (d.interfacesIn w).map fun t => RustBlock.ofMembers w false (d.membersFor w t)

end TypeDecl

def IsImpl (scene : Scene) (block : RustBlock) (text : String) : Prop :=
  ∃ what inside, text = "\n" ++ Emit.braced scene 0 ("impl" ++ what) inside ∧
    (RustPiece.layout scene 1).Makes block.functions inside

/-- The text is the type with its blocks. -/
def IsRustType (scene : Scene) (text : String) : Prop :=
  ∃ struct blocks, text = struct ++ String.join blocks ∧
    Forall₂ (IsImpl scene) (scene.decl.rustBlocks scene.world) blocks

namespace Emit

variable {r : Emitter} {scene : Scene} {n : Nat} {names : List String}

/-- The emission of functions with some names. -/
abbrev Defines (scene : Scene) (n : Nat) (names : List String) (x : Emit Unit) : Prop :=
  Lays scene n (RustPiece.layout scene n) names x

theorem defines_blankLine : Defines scene n [] blankLine := Lays.piece adds_blankLine RustPiece.blank rfl rfl

variable {head : String} {m : Member}

theorem defines_bodyBlock (tidy : r.Tidy) (f : RustFunction) (body : Option Stmt) (before : List String) (same : head = f.head) :
    Defines scene n [f.name] (bodyBlock r head body before) := by
  rw [same]
  refine (adds_bodyBlock tidy f.head_ne_empty body before).mono ?_
  rintro _ ⟨inside, rfl⟩
  exact Layout.Makes.piece (RustPiece.function f _)

theorem defines_rustAccessor (rust : scene.target = .rust) (f : RustFunction) (body : String) (same : head = f.head) :
    Defines scene n [f.name] (rustAccessor head body) := by
  have opens : opening scene n f.head = lineAt scene n (f.head ++ " \x7b") := by
    rw [opening, rust]
    rfl
  rw [same]
  refine (adds_line _).andThen (adds_indent.andThen ((adds_line _).andThen (adds_outdent.andThen ((adds_line _).mono ?_))))
  rintro _ rfl
  rw [String.empty_append, ← opens, ← String.append_assoc]
  exact Layout.Makes.piece (RustPiece.function f _)

@[grind ←] theorem silent_rustParameters (s : Symbol) : Silent (rustParameters s) := by
  refine silent_formalParameters (fun p type name => ?_) _
  grind

@[grind ←] theorem silent_rustResult (s : Symbol) : Silent (rustResult s) := by
  unfold rustResult
  grind

@[grind ←] theorem silent_storage? (m : Member) : Silent (storage? m) := by
  unfold storage?
  grind

@[grind ←] theorem silent_rustChain (parts : r.Disciplined) (m : Member) : Silent (rustChain r m) := by
  unfold rustChain
  grind

theorem yields_rustSignature (s : Symbol) : Yields scene (fun head => ∃ parameters result,
    head = "fn " ++ scene.symbolName s ++ rustBounds s.typeParameters ++ "(" ++ parameters ++ ")" ++ result)
      (rustSignature s) := by
  refine (silent_rustParameters s).yields.bind fun parameters _ => ?_
  refine YieldsOn.andThen (.reads (a := scene.symbolName s) fun _ => rfl) ?_
  exact (silent_rustResult s).yields.bind fun result _ => .pure ⟨_, result, rfl⟩

theorem writes_rustFieldValues (parts : r.Disciplined) (d : TypeDecl) : Writes n n (rustFieldValues r d) := by
  refine Writes.forM fun m _ => (silent_storage? m).bind_writes fun field => ?_
  cases field with
  | none => exact .pure ()
  | some field =>
    have rest (value : String) : Writes n n (line (field ++ ": " ++ value ++ ",")) := writes_line _
    dsimp only
    split
    · exact (Keeps.pure _).bind_writes rest
    · exact (silent_initialValue parts m).bind_writes rest

/-- What is written up to the end of a block. -/
abbrev Ends (scene : Scene) (n : Nat) (x : Emit Unit) : Prop :=
  Adds scene (n + 1) n (fun s => ∃ inside, s = inside ++ lineAt scene n "\x7d") x

theorem ends_closing : Ends scene n (do closeBlock; endLine) := by
  refine adds_closing.mono ?_
  rintro _ rfl
  exact ⟨"", String.empty_append.symm⟩

theorem Ends.behind {x : Emit Unit} {f : Unit → Emit Unit} (first : AddsText scene (n + 1) (n + 1) x) (next : Ends scene n (f ())) :
    Ends scene n (x >>= f) := by
  refine Adds.bind first fun a _ => next.mono ?_
  rintro _ ⟨inside, rfl⟩
  exact ⟨a ++ inside, String.append_assoc.symm⟩

theorem defines_block (f : RustFunction) {rest : Unit → Emit Unit} (same : head = f.head) (ends : Ends scene n (rest ())) :
    Defines scene n [f.name] (openBlock head >>= rest) := by
  rw [same]
  refine (adds_openBlock f.head_ne_empty).andThen (ends.mono ?_)
  rintro _ ⟨inside, rfl⟩
  rw [← String.append_assoc]
  exact Layout.Makes.piece (RustPiece.function f inside)

theorem defines_rustNew (tidy : r.Tidy) (d : TypeDecl) (s : Symbol) (runsBody : Bool) :
    Defines scene n ["new" ++ scene.world.overloadSuffix s] (rustNew r d s runsBody) := by
  have object (name : String) : Silent (captureInline do openBlock name; rustFieldValues r d; closeBlock) := by
    refine (silent_capture fun k => ?_).bind fun _ => .pure _
    exact (writes_openBlock name).bind fun _ => (writes_rustFieldValues tidy.parts d).bind fun _ => writes_closeBlock
  unfold rustNew
  refine .reads (fun _ => rfl) (.given (silent_rustParameters s).yields fun parameters _ => ?_)
  refine .given (Keeps.yields (.mapM (fun p => keeps_fitted _) _)) fun args _ => ?_
  let f : RustFunction :=
    { isPublic := s.access = .public || s.access = .internal, name := "new" ++ scene.world.overloadSuffix s, parameters
      result := " -> " ++ if d.head.kind = .structDecl then "Self" else "Rc<RefCell<Self>>" }
  refine defines_block f ?_ (.given (silent_declaredName _).yields fun name _ => .given (object name).yields fun text _ => ?_)
  · rw [show "fn new" = "fn " ++ "new" by decide, show ") -> " = ")" ++ " -> " by decide, RustFunction.head, rustVisibility,
      show rustBounds f.bounds = "" from rfl]
    simp only [f, String.append_assoc, String.empty_append]
  · have last : Ends scene n (do line "this"; closeBlock; endLine) := .behind (adds_line _).text ends_closing
    exact Ends.behind (adds_line _).text (Adds.ite (fun _ => Ends.behind (adds_line _).text last) fun _ => last)

theorem defines_rustConstructor (tidy : r.Tidy) (d : TypeDecl) (isConstructor : m.kind = .constructor) (isInherent : Bool) :
    Defines scene n (m.rustFunctions scene.world isInherent) (rustConstructor r d m) := by
  rw [Member.rustFunctions, isConstructor]
  refine Lays.bind (defines_rustNew tidy d m.symbol true) (defines_blankLine.behind ?_)
  refine .given (silent_rustChain tidy.parts m).yields fun before _ => .given (silent_rustParameters _).yields fun parameters _ => ?_
  refine .reads (fun _ => rfl) ?_
  let f : RustFunction :=
    { name := "init" ++ scene.world.overloadSuffix m.symbol, parameters := withReceiver parameters, result := "" }
  refine defines_bodyBlock tidy f _ _ ?_
  rw [show "fn init" = "fn " ++ "init" by decide, RustFunction.head, show rustBounds f.bounds = "" from rfl]
  simp only [f, String.append_assoc, String.empty_append, String.append_empty, Bool.false_eq_true, if_false]

theorem defines_rustProperty (tidy : r.Tidy) (rust : scene.target = .rust) (isProperty : m.kind = .property) (isInherent : Bool) :
    Defines scene n (m.rustFunctions scene.world isInherent) (rustProperty r m isInherent) := by
  let isPublic : Bool := isInherent && (m.symbol.access = .public || m.symbol.access = .internal)
  have visibility : (if isInherent then rustVisibility m.symbol else "") = if isPublic then "pub " else "" := by
    cases isInherent <;> rfl
  unfold rustProperty
  dsimp only
  refine .given (keeps_declaredTypeName _ _).yields fun type _ => ?_
  rw [visibility]
  let getter : RustFunction := ⟨isPublic, Target.getter .rust m.symbol, [], "&mut self", " -> " ++ type⟩
  let setter : RustFunction := ⟨isPublic, Target.setter .rust m.symbol, [], "&mut self, mut value: " ++ type, ""⟩
  have reads : (if isPublic then "pub " else "") ++ "fn " ++ Target.getter .rust m.symbol ++ "(&mut self) -> " ++ type =
      getter.head := by
    rw [show "(&mut self) -> " = "(" ++ "&mut self" ++ ")" ++ " -> " by decide, RustFunction.head,
      show rustBounds getter.bounds = "" from rfl]
    simp only [getter, String.append_assoc, String.empty_append]
  have writes : (if isPublic then "pub " else "") ++ "fn " ++ Target.setter .rust m.symbol ++ "(&mut self, mut value: " ++
      type ++ ")" = setter.head := by
    rw [show "(&mut self, mut value: " = "(" ++ "&mut self, mut value: " by decide, RustFunction.head,
      show rustBounds setter.bounds = "" from rfl]
    simp only [setter, String.append_assoc, String.append_empty]
  rw [reads, writes, Member.rustFunctions, isProperty]
  refine Lays.ite (fun _ => ?_) fun _ => ?_
  · refine Lays.bind (defines_rustAccessor rust getter _ rfl) (Lays.ite (fun _ => ?_) fun _ => Lays.done)
    exact defines_blankLine.behind (defines_rustAccessor rust setter _ rfl)
  · refine Lays.when (defines_bodyBlock tidy getter _ _ rfl) (Lays.ite (fun _ => ?_) fun _ => Lays.done)
    have write : Defines scene n [setter.name] (bodyBlock r setter.head m.setter) := defines_bodyBlock tidy setter m.setter [] rfl
    exact Adds.ite (fun _ => defines_blankLine.behind write) fun _ => write

/-- A method or an operator. -/
theorem defines_rustMethod (tidy : r.Tidy) (m : Member) (isInherent : Bool) :
    Defines scene n [scene.symbolName m.symbol] (do
      if m.body.isNone then unsupported m.place ("abstract method " ++ m.symbol.name)
      else
        let head ← rustSignature m.symbol
        bodyBlock r ((if isInherent then rustVisibility m.symbol else "") ++ head) m.body) := by
  refine Adds.ite (fun _ => .fails fun sheet => ⟨_, rfl⟩) fun _ => .given (yields_rustSignature m.symbol) ?_
  rintro _ ⟨parameters, result, rfl⟩
  let f : RustFunction :=
    { isPublic := isInherent && (m.symbol.access = .public || m.symbol.access = .internal), name := scene.symbolName m.symbol
      bounds := m.symbol.typeParameters, parameters, result }
  refine defines_bodyBlock tidy f _ _ ?_
  have visibility : (if isInherent then rustVisibility m.symbol else "") = if f.isPublic then "pub " else "" := by
    cases isInherent <;> rfl
  rw [visibility, RustFunction.head]
  simp only [f, String.append_assoc]

theorem defines_rustMember (tidy : r.Tidy) (rust : scene.target = .rust) (d : TypeDecl) (plain : m.IsPlain) (isInherent : Bool) :
    Defines scene n (m.rustFunctions scene.world isInherent) (rustMember r d isInherent m) := by
  unfold rustMember
  cases kind : m.kind with
  | constructor => exact defines_rustConstructor tidy d kind isInherent
  | property => exact defines_rustProperty tidy rust kind isInherent
  | method | operator =>
    have name : m.rustFunctions scene.world isInherent = [scene.symbolName m.symbol] := by
      rw [Member.rustFunctions, Scene.symbolName, rust, plain.rename, plain.kind, kind]
      rfl
    rw [name]
    exact defines_rustMethod tidy m isInherent
  | field | event =>
    rw [Member.rustFunctions, kind]
    exact Lays.done

/-! ## Blocks -/

theorem defines_spaced {xs : List (Emit Unit)} {block : RustBlock}
    (each : Forall₂ (fun x entry => Defines scene n entry.2 x) xs block) (isFirst : Bool) :
    Defines scene n block.functions (spaced isFirst xs) := by
  induction each generalizing isFirst with
  | nil => exact Lays.done
  | @cons x entry xs block here _ ih =>
    cases isFirst with
    | true => exact Lays.bind here (ih false)
    | false => exact defines_blankLine.behind (Lays.bind here (ih false))

theorem defines_members (tidy : r.Tidy) (rust : scene.target = .rust) (d : TypeDecl) (isInherent : Bool) {members : List Member}
    (plain : ∀ m ∈ members, m.IsPlain) :
    Forall₂ (fun x entry => Defines scene n entry.2 x) (members.map fun m => inMember m (rustMember r d isInherent m))
      (RustBlock.ofMembers scene.world isInherent members) := by
  rw [RustBlock.ofMembers, forall₂_map_left_iff, forall₂_map_right_iff, forall₂_same]
  intro m hm
  refine Adds.inMember (defines_rustMember tidy ?_ d (plain m hm) isInherent) m
  exact rust

section Impl

variable {xs : List (Emit Unit)} {block : RustBlock} {head : String}

theorem adds_impl (what : String) (isHead : head = "impl" ++ what)
    (each : Forall₂ (fun x entry => Defines scene 1 entry.2 x) xs block) :
    Adds scene 0 0 (IsImpl scene block) (do
      blankLine
      openBlock head
      spaced true xs
      closeBlock
      endLine) := by
  rw [isHead]
  refine adds_blankLine.andThen ((adds_openBlock (by simp)).andThen ?_)
  refine Adds.bind (defines_spaced each true) fun inside made => adds_closing.mono ?_
  rintro _ rfl
  exact ⟨what, inside, by rw [braced, String.append_assoc], made⟩

/-- A block, and what follows. -/
theorem Adds.impl {P : String → Prop} {f : Unit → Emit Unit} (what : String) (isHead : head = "impl" ++ what)
    (each : Forall₂ (fun x entry => Defines scene 1 entry.2 x) xs block)
    (next : ∀ text, IsImpl scene block text → Adds scene 0 0 (fun rest => P (text ++ rest)) (f ())) : Adds scene 0 0 P
      (blankLine >>= fun _ => openBlock head >>= fun _ => spaced true xs >>= fun _ => closeBlock >>= fun _ => endLine >>= f) := by
  have whole := (adds_impl what isHead each).bind next
  simpa only [bind_assoc] using whole

end Impl

theorem addsText_rustFieldLine (m : Member) : AddsText scene n n (rustFieldLine m) := by
  refine .computed (silent_storage? m) fun field => ?_
  cases field with
  | none => exact addsText_done
  | some field => exact .computed (keeps_declaredTypeName _ _) fun type => (adds_line _).text

section

variable (tidy : r.Tidy) (rust : scene.target = .rust) (plain : ∀ m ∈ scene.decl.members, m.IsPlain)
include tidy rust plain

theorem defines_inherent :
    Forall₂ (fun x entry => Defines scene n entry.2 x) ((if (scene.decl.membersOf [.constructor]).isEmpty then
          [rustNew r scene.decl (implicitConstructor scene.decl) false] else []) ++
        (scene.decl.inherentMembers scene.world).map fun m => inMember m (rustMember r scene.decl true m))
      (scene.decl.inherentBlock scene.world) := by
  have own : ∀ m ∈ scene.decl.inherentMembers scene.world, m.IsPlain :=
    fun m hm => plain m (mem_filter.mp hm).1
  unfold TypeDecl.inherentBlock
  split
  · exact .cons (defines_rustNew tidy scene.decl _ false) (defines_members tidy rust scene.decl true own)
  · exact defines_members tidy rust scene.decl true own

theorem adds_rustStruct (name : String) : Adds scene 0 0 (IsRustType scene) (rustStruct r name) := by
  refine .reads (fun _ => rfl) (.given silent_typeParameterList.yields fun parameters _ => ?_)
  have worded : rustVisibility scene.decl.symbol ++ "struct " ++ name ++ parameters ≠ "" := by
    intro empty
    have chars := congrArg String.toList empty
    simp at chars
  refine Adds.bind (adds_line _) fun derived _ => Adds.bind (adds_openBlock worded) fun opened _ => ?_
  refine Adds.bind (Adds.forM fun m _ => addsText_rustFieldLine m) fun fields _ => .closing ?_
  refine Adds.impl (rustBounds scene.decl.head.params ++ " " ++ name ++ parameters) (by simp only [String.append_assoc])
    (defines_inherent tidy rust plain) fun own isOwn => ?_
  refine (Adds.forM (T := fun t => IsImpl scene (.ofMembers scene.world false (scene.decl.membersFor scene.world t)))
    fun t _ => ?_).mono ?_
  · refine .given (keeps_fullName _).yields fun interface _ => ?_
    refine adds_impl (rustBounds scene.decl.head.params ++ " " ++ interface ++ " for " ++ name ++ parameters)
      (by simp only [String.append_assoc]) (defines_members tidy rust scene.decl false fun m hm => ?_)
    exact plain m (mem_filter.mp hm).1
  · rintro _ ⟨others, areOthers, rfl⟩
    refine ⟨derived ++ opened ++ fields ++ lineAt scene 0 "\x7d", own :: others, ?_, ?_⟩
    · simp only [String.join_cons, String.append_assoc]
    · exact .cons isOwn (forall₂_map_left_iff.mpr areOthers)

theorem adds_rustDeclaration (isClass : scene.decl.head.kind = .classDecl ∨ scene.decl.head.kind = .structDecl) :
    Adds scene 0 0 (IsRustType scene) (rustDeclaration r) := by
  refine .reads (fun _ => rfl) (.reads (declaredName_apply _) ?_)
  rcases isClass with h | h
  all_goals
    rw [h]
    refine .ite (fun _ => .fails fun sheet => ⟨_, rfl⟩) fun _ => ?_
    cases rustRefused? scene.decl with
    | some what => exact .fails fun sheet => ⟨_, rfl⟩
    | none => exact adds_rustStruct tidy rust plain _

end

end Emit

end Polyglot
