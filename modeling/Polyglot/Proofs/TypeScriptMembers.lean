import Polyglot.Proofs.Writing.Pieces

/-!
# Members in TypeScript

What stands between the braces of a class are the members of its declaration, in order, and nothing else. A member takes one
name of the class: as a value, or as a getter, a setter or both. Overloads are refused, so what succeeds has none.
-/

namespace Polyglot

open List

/-! ## Slots -/

/-- How a name of a class is used. -/
inductive SlotRole where
  | value
  | getter
  | setter
deriving Repr, DecidableEq

/-- A name that a class declares. -/
structure MemberSlot where
  role : SlotRole
  name : String
deriving Repr, DecidableEq

/-- A piece of a class. -/
inductive TypeScriptPiece where
  | blank
  | stored (s : Symbol) (name rest : String)
  | getter (s : Symbol) (name type body : String)
  | setter (s : Symbol) (name type body : String)
  | method (s : Symbol) (name parameters result : String) (body : Option String)
  | constructor (parameters body : String)
  | initializer (body : String)

namespace TypeScriptPiece

def slot? : TypeScriptPiece → Option MemberSlot
  | stored _ name _ | method _ name _ _ _ => some ⟨.value, name⟩
  | getter _ name _ _ => some ⟨.getter, name⟩
  | setter _ name _ _ => some ⟨.setter, name⟩
  | blank | constructor _ _ | initializer _ => none

def methodHead (s : Symbol) (name parameters result : String) : String :=
  Emit.typescriptModifiers s false (Emit.isConstant s) ++ name ++ Target.argumentList s.typeParameters ++ "(" ++ parameters ++
    "): " ++ result

def text (scene : Scene) (n : Nat) : TypeScriptPiece → String
  | blank => "\n"
  | stored s name rest =>
    Emit.lineAt scene n (Emit.typescriptModifiers s false (Emit.isConstant s) ++ name ++ ": " ++ rest ++ ";")
  | getter s name type body =>
    Emit.braced scene n (Emit.typescriptModifiers s false false ++ "get " ++ name ++ "(): " ++ type) body
  | setter s name type body =>
    Emit.braced scene n (Emit.typescriptModifiers s false false ++ "set " ++ name ++ "(value: " ++ type ++ ")") body
  | method s name parameters result none => Emit.lineAt scene n (methodHead s name parameters result ++ ";")
  | method s name parameters result (some body) => Emit.braced scene n (methodHead s name parameters result) body
  | constructor parameters body => Emit.braced scene n ("constructor(" ++ parameters ++ ")") body
  | initializer body => Emit.braced scene n "static" body

abbrev layout (scene : Scene) (n : Nat) : Layout TypeScriptPiece MemberSlot := ⟨text scene n, slot?⟩

end TypeScriptPiece

namespace Member

def typescriptName (m : Member) : String :=
  if m.kind = .operator then m.symbol.name else Target.typescript.fitted m.symbol.name

/-- What a member takes up in its class. -/
def slots (m : Member) : List MemberSlot :=
  match m.kind with
  | .field | .event | .method | .operator => [⟨.value, m.typescriptName⟩]
  | .property =>
    if m.isAuto then [⟨.value, m.typescriptName⟩]
    else
      (if m.getter.isSome then [⟨.getter, m.typescriptName⟩] else []) ++
        (if m.setter.isSome then [⟨.setter, m.typescriptName⟩] else [])
  | .constructor => []

end Member

/-- The text is a class with the slots of its members. -/
def IsTypeScriptClass (scene : Scene) (text : String) : Prop :=
  ∃ head inside, text = Emit.braced scene 0 ("export " ++ head) inside ∧
    (TypeScriptPiece.layout scene 1).Makes (scene.decl.members.flatMap Member.slots) inside

namespace Emit

variable {r : Emitter} {scene : Scene} {n : Nat} {slots : List MemberSlot}

/-- The emission of members with some names. -/
abbrev Declares (scene : Scene) (n : Nat) (slots : List MemberSlot) (x : Emit Unit) : Prop :=
  Lays scene n (TypeScriptPiece.layout scene n) slots x

@[grind ←] theorem silent_typescriptParameters (s : Symbol) : Silent (typescriptParameters s) := by
  refine silent_formalParameters (fun p type name => ?_) _
  grind

section

variable (tidy : r.Tidy)
include tidy

theorem declares_bodyBlock {head : String} (some : head ≠ "") (body : Option Stmt) (before : List String)
    (piece : String → TypeScriptPiece) (isText : ∀ inside, braced scene n head inside = (piece inside).text scene n)
    (shown : ∀ inside, (piece inside).slot?.toList = slots) : Declares scene n slots (bodyBlock r head body before) := by
  refine (adds_bodyBlock tidy some body before).mono ?_
  rintro _ ⟨inside, rfl⟩
  rw [isText, ← shown]
  exact Layout.Makes.piece (piece _)

theorem declares_stored (m : Member) (name type : String) : Declares scene n [⟨.value, name⟩] (typescriptStored r m false
      (typescriptModifiers m.symbol false (isConstant m.symbol) ++ name ++ ": " ++ type)) := by
  refine .given (silent_initialValue tidy.parts m).yields fun value _ => ?_
  refine Lays.piece (adds_line _) (TypeScriptPiece.stored m.symbol name (type ++ " = " ++ value)) ?_ rfl
  simp only [TypeScriptPiece.text, String.append_assoc]

theorem declares_property {m : Member} (isProperty : m.kind = .property) :
    Declares scene n m.slots (typescriptProperty r m false m.typescriptName) := by
  refine .given (keeps_typeName _ _).yields fun type _ => ?_
  refine Adds.ite (fun _ => .fails fun sheet => ⟨_, rfl⟩) fun _ => ?_
  rw [Member.slots, isProperty]
  refine Lays.ite (fun _ => declares_stored tidy m _ _) fun _ => ?_
  refine Lays.when ?_ (Lays.ite (fun _ => ?_) fun _ => Lays.done)
  · refine declares_bodyBlock tidy ?_ _ _ (TypeScriptPiece.getter m.symbol m.typescriptName type) (fun _ => rfl) fun _ => rfl
    simp
  · refine declares_bodyBlock tidy ?_ _ _ (TypeScriptPiece.setter m.symbol m.typescriptName type) (fun _ => rfl) fun _ => rfl
    simp

theorem declares_constructor (m : Member) : Declares scene n [] (typescriptConstructor r m) := by
  refine Adds.ite (fun _ => ?_) fun _ => .given (silent_typescriptParameters _).yields fun parameters _ => ?_
  · exact declares_bodyBlock tidy (by decide) _ _ TypeScriptPiece.initializer (fun _ => rfl) fun _ => rfl
  · cases m.chain
    case' none => refine .reads (fun _ => rfl) ?_
    case' some chain =>
      refine .given (silent_chainCall tidy.parts chain).yields fun call _ => Adds.ite (fun _ => ?_) fun _ => .fails fun sheet => ⟨_, rfl⟩
    all_goals
      refine declares_bodyBlock tidy ?_ _ _ (TypeScriptPiece.constructor parameters) (fun _ => rfl) fun _ => rfl
      simp

/-- A method, with a body or without. -/
theorem declares_method (m : Member) (name : String) : Declares scene n [⟨.value, name⟩] (do
      let parameters ← typescriptParameters m.symbol
      let head := typescriptModifiers m.symbol false (isConstant m.symbol) ++ name ++
        Target.argumentList m.symbol.typeParameters ++ "(" ++ parameters ++ "): " ++ (← returnType m.symbol)
      if m.body.isNone then line (head ++ ";") else bodyBlock r head m.body) := by
  refine .given (silent_typescriptParameters _).yields fun parameters _ => ?_
  refine .given (silent_returnType _).yields fun result _ => Adds.ite (fun _ => ?_) fun _ => ?_
  · exact Lays.piece (adds_line _) (TypeScriptPiece.method m.symbol name parameters result none) rfl rfl
  · refine declares_bodyBlock tidy ?_ _ _ (fun inside => TypeScriptPiece.method m.symbol name parameters result (some inside))
      (fun _ => rfl) fun _ => rfl
    simp

section

variable (typescript : scene.target = .typescript)
include typescript

theorem declares_member {m : Member} (plain : m.IsPlain) : Declares scene n m.slots (typescriptMember r false m) := by
  refine .reads (fun _ => rfl) ?_
  have name (other : m.kind ≠ .constructor ∧ m.kind ≠ .operator) : scene.symbolName m.symbol = m.typescriptName := by
    rw [Scene.symbolName, typescript, plain.rename, plain.kind, Member.typescriptName]
    revert other
    cases m.kind <;> simp [MemberKind.symbolKind]
  cases kind : m.kind with
  | field | event =>
    rw [name (by simp [kind]), Member.slots, kind]
    exact .given (keeps_typeName _ _).yields fun type _ => declares_stored tidy m _ type
  | property =>
    rw [name (by simp [kind])]
    exact declares_property tidy kind
  | constructor =>
    rw [Member.slots, kind]
    exact declares_constructor tidy m
  | method =>
    rw [name (by simp [kind]), Member.slots, kind]
    exact declares_method tidy m _
  | operator =>
    have own : m.typescriptName = m.symbol.name := if_pos kind
    rw [Member.slots, kind, own]
    exact declares_method tidy m _

section

variable (plain : ∀ m ∈ scene.decl.members, m.IsPlain)
include plain

theorem declares_members :
    Declares scene n (scene.decl.members.flatMap Member.slots) (separatedMembers (typescriptMember r false)) := by
  refine .reads (fun _ => rfl) ?_
  rw [← TypeDecl.map_snd_withPrevious, flatMap_map]
  refine Lays.forM fun (previous, m) listed => ?_
  have mem : m ∈ scene.decl.members := by
    rw [← TypeDecl.map_snd_withPrevious]
    exact mem_map_of_mem listed
  have member : Declares scene n m.slots (inMember m (typescriptMember r false m)) :=
    Adds.inMember (by apply declares_member tidy <;> first | assumption | exact plain m mem) m
  have blank : Declares scene n [] blankLine := Lays.piece adds_blankLine TypeScriptPiece.blank rfl rfl
  exact Adds.ite (fun _ => blank.behind member) fun _ => member

theorem adds_typescriptClass (isClass : scene.decl.head.kind = .classDecl ∨ scene.decl.head.kind = .structDecl) (name : String) :
    Adds scene 0 0 (IsTypeScriptClass scene) (typescriptClass r name) := by
  have other : decide (scene.decl.head.kind = .interfaceDecl) = false := by
    rcases isClass with h | h <;> rw [h] <;> rfl
  have whole (keyword base supers : String) : "export " ++ keyword ++ " " ++ name ++ base ++ supers =
      "export " ++ (keyword ++ " " ++ name ++ base ++ supers) := by
    simp only [String.append_assoc]
  refine .reads (fun _ => rfl) (.reads (fun _ => rfl) ?_)
  cases scene.baseClass
  case' some t => refine .given (keeps_fullName _).yields fun base _ => ?_
  all_goals
    refine .reads (fun _ => rfl) (.reads (fun _ => rfl) ?_)
    refine .given (Keeps.yields (.mapM (fun t => keeps_typeName _ _) _)) fun supers _ => ?_
    dsimp only
    rw [whole, other]
    refine (adds_braces (by simp) (declares_members tidy typescript plain)).mono ?_
    rintro _ ⟨inside, made, rfl⟩
    exact ⟨_, inside, rfl, made⟩

theorem adds_typescriptDeclaration (isClass : scene.decl.head.kind = .classDecl ∨ scene.decl.head.kind = .structDecl) :
    Adds scene 0 0 (IsTypeScriptClass scene) (typescriptDeclaration r) := by
  refine .reads (fun _ => rfl) (.reads (declaredName_apply _) ?_)
  refine .given silent_typeParameterList.yields fun parameters _ => ?_
  have rest := adds_typescriptClass tidy typescript plain isClass
  rcases isClass with h | h
  all_goals
    rw [h]
    exact rest _

end

end

end

end Emit

/-! ## Overloads -/

theorem firstRepeated?_eq_none {seen names : List String} (h : firstRepeated? seen names = none) :
    names.Nodup ∧ ∀ name ∈ names, name ∉ seen := by
  induction names generalizing seen with
  | nil => exact ⟨nodup_nil, by simp⟩
  | cons name names ih =>
    rw [firstRepeated?] at h
    split at h
    · cases h
    · next fresh =>
      obtain ⟨nodup, unseen⟩ := ih h
      rw [contains_iff_mem] at fresh
      refine ⟨nodup_cons.mpr ⟨fun again => unseen name again mem_cons_self, nodup⟩, ?_⟩
      refine forall_mem_cons.mpr ⟨fresh, fun other ho seen => unseen other ho (mem_cons_of_mem _ seen)⟩

/-- A file that is written has no overloads. -/
theorem Emit.overloaded?_of_run {scene : Scene} {sheet sheet' : Sheet} (typescript : scene.target = .typescript)
    (run : artifactFile scene sheet = (.ok (), sheet')) : scene.decl.overloaded? = none := by
  rw [artifactFile, bind_ok (show (read : Emit Scene) scene sheet = (.ok scene, sheet) from rfl), typescript] at run
  change typescriptFile scene.emitter scene sheet = _ at run
  rw [typescriptFile, bind_ok (show decl scene sheet = (.ok scene.decl, sheet) from rfl)] at run
  cases overloaded : scene.decl.overloaded? with
  | none => rfl
  | some what =>
    rw [overloaded] at run
    cases run

theorem TypeDecl.pairwise_methods {d : TypeDecl} (single : d.overloaded? = none) :
    d.members.Pairwise fun m o => m.kind = .method → o.kind = .method → m.symbol.name ≠ o.symbol.name := by
  have nodup := (firstRepeated?_eq_none single).1
  rw [Nodup, pairwise_filterMap] at nodup
  refine nodup.imp fun {m o} differ isMethod isMethod' => ?_
  refine differ _ ?_ _ ?_
  · rw [overloadKey?, isMethod]
  · rw [overloadKey?, isMethod']

end Polyglot
