import Polyglot.Declare.CSharp
import Polyglot.Declare.Java
import Polyglot.Proofs.Writing.Statements

/-!
# Declarations only add text

What a declaration of C# or Java is made of adds text to the current buffer, like the statements inside it. There is one
lemma for each function that writes a part of a declaration, under the promise that trees are emitted well.
-/

namespace Polyglot

namespace Emit

variable {α β : Type} {r : Emitter} {x : Emit α}

/-! ## Parts of declarations -/

@[grind ←] theorem Keeps.inMember (silent : Keeps Sheet.writer x) (m : Member) : Silent (inMember m x) :=
  fun scene _ => silent scene _

@[grind ←] theorem silent_decl : Silent decl := keeps_read.bind fun _ => .pure _

@[grind ←] theorem silent_declaredName (h : TypeHead) : Silent (declaredName h) :=
  keeps_target.bind fun _ => keeps_index.bind fun _ => .pure _

@[grind ←] theorem silent_typeParameterList : Silent typeParameterList := silent_decl.bind fun _ => .pure _

variable (s : Symbol) (head : String)

@[grind ←] theorem silent_returnType : Silent (returnType s) := keeps_declaredTypeName _ _

@[grind ←] theorem silent_invokeOf : Silent invokeOf := by
  unfold invokeOf
  grind

@[grind ←] theorem silent_refusedParameter (owner : Symbol) (p : Parameter) : Silent (refusedParameter owner p) :=
  keeps_unsupported _ _

theorem silent_formalParameters {write : Parameter → String → String → Emit String}
    (each : ∀ p type name, Silent (write p type name)) (parameters : List Parameter) :
    Silent (formalParameters parameters write) := by
  refine Keeps.bind (.mapM (fun p => ?_) parameters) fun _ => .pure _
  exact (keeps_fitted p.name).bind fun name => (keeps_usedTypeName _).bind fun type => each p type name

@[grind ←] theorem silent_parameterDefault (parts : r.Disciplined) (p : Parameter) : Silent (parameterDefault r p) := by
  unfold parameterDefault
  grind

@[grind ←] theorem silent_initialValue (parts : r.Disciplined) (m : Member) : Silent (initialValue r m) := by
  unfold initialValue
  grind

@[grind ←] theorem silent_chainCall (parts : r.Disciplined) (chain : Expr) : Silent (chainCall r chain) := by
  unfold chainCall
  grind

/-! ## What is added only -/

/-- **What has been written stays**: something only adds to it, from whichever level to whichever other. -/
def Grows (x : Emit α) : Prop := ∀ (scene : Scene) (sheet : Sheet), sheet.writer.Extends (x scene sheet).2.writer

theorem Keeps.grows (silent : Keeps Sheet.writer x) : Grows x := by
  intro scene sheet
  rw [silent scene sheet]
  exact .refl _

theorem Writes.grows {reached : Nat → Nat} (writes : ∀ n, Writes n (reached n) x) : Grows x :=
  fun scene sheet => (writes _ scene sheet rfl).1

namespace Grows

@[grind ←] theorem bind {x : Emit α} {f : α → Emit β} (first : Grows x) (next : ∀ a, Grows (f a)) : Grows (x >>= f) := by
  intro scene sheet
  have added := first scene sheet
  rw [bind_apply]
  cases result : x scene sheet with
  | mk outcome sheet' =>
    rw [result] at added
    cases outcome with
    | error e => exact added
    | ok a => exact added.trans (next a scene sheet')

@[grind ←] theorem pure (a : α) : Grows (Pure.pure a) := (Keeps.pure a).grows

@[grind ←] theorem forM {f : β → Emit Unit} (each : ∀ b, Grows (f b)) (l : List β) : Grows (l.forM f) := by
  induction l with
  | nil => exact .pure ()
  | cons b l ih => exact (each b).bind fun _ => ih

@[grind ←] theorem inMember {x : Emit α} (grows : Grows x) (m : Member) : Grows (inMember m x) :=
  fun scene sheet => grows scene { sheet with member := some m, inConstructor := m.kind = .constructor }

end Grows

@[grind ←] theorem Keeps.bind_grows {x : Emit α} {f : α → Emit β} (silent : Keeps Sheet.writer x)
    (next : ∀ a, Grows (f a)) : Grows (x >>= f) := silent.grows.bind next

@[grind ←] theorem grows_unsupported (place : Position) (what : String) : Grows (unsupported place what : Emit α) :=
  (keeps_unsupported place what).grows

theorem grows_onWriter {f : Writer → Writer} (adds : ∀ w : Writer, w.Extends (f w)) : Grows (onWriter f) :=
  fun _ sheet => adds sheet.writer

@[grind ←] theorem grows_line : Grows (line head) := Writes.grows fun _ => writes_line head

@[grind ←] theorem grows_lines (ls : List String) : Grows (lines ls) := .forM grows_line ls

@[grind ←] theorem grows_blankLine : Grows blankLine := by
  refine grows_onWriter fun w => .mapTop ?_
  obtain ⟨added, text⟩ : ∃ added, w.top.endLine.text = w.top.text ++ added := Buffer.text_endLine
  exact ⟨added ++ "\n", by rw [Buffer.breakLine, text, String.append_assoc]⟩

@[grind ←] theorem grows_openBlock : Grows (openBlock head) := Writes.grows fun _ => writes_openBlock head

@[grind ←] theorem grows_closing : Grows (do closeBlock; endLine) := by
  have outdent : Grows outdent := grows_onWriter fun _ => .mapTop ⟨"", String.append_empty.symm⟩
  have brace : Grows (write "\x7d") := Writes.grows fun _ => writes_write _
  exact (outdent.bind fun _ => brace).bind fun _ => Writes.grows fun _ => writes_endLine

@[grind ←] theorem grows_lineBlock (inside : List String) : Grows (lineBlock head inside) := by
  unfold lineBlock
  grind

@[grind ←] theorem grows_separatedMembers {declare : Member → Emit Unit} (each : ∀ m, Grows (declare m)) :
    Grows (separatedMembers declare) := by
  unfold separatedMembers
  grind

section

variable (parts : r.Disciplined)
include parts

@[grind ←] theorem grows_bodyBlock (head : String) (body : Option Stmt) (before : List String) :
    Grows (bodyBlock r head body before) := by
  have inside : Grows (r.body body) := Writes.grows fun _ => writes_body parts body
  unfold bodyBlock
  grind

/-! ## Java -/

omit parts in
@[grind ←] theorem silent_javaParameters : Silent (javaParameters s) := by
  refine silent_formalParameters (fun p type name => ?_) _
  grind

variable (m : Member)

@[grind ←] theorem silent_javaInitial : Silent (javaInitial r m) := by
  unfold javaInitial
  grind

@[grind ←] theorem grows_javaStored (type getter setter : String) :
    Grows (javaStored r m type getter setter) := by
  unfold javaStored
  grind

@[grind ←] theorem grows_javaProperty (modifiers : String) (inInterface : Bool) :
    Grows (javaProperty r m modifiers inInterface) := by
  unfold javaProperty
  grind

@[grind ←] theorem grows_javaConstructor : Grows (javaConstructor r m) := by
  unfold javaConstructor
  grind

@[grind ←] theorem grows_javaMember (inInterface : Bool) (m : Member) : Grows (javaMember r inInterface m) := by
  unfold javaMember
  grind

/-! ## C# -/

@[grind ←] theorem silent_csharpParameters (parameters : List Parameter) : Silent (csharpParameters r parameters) :=
  silent_formalParameters (fun p _ _ => (silent_parameterDefault parts p).bind fun _ => .pure _) parameters

@[grind ←] theorem silent_csharpInitial : Silent (csharpInitial r m) := by
  unfold csharpInitial
  grind

@[grind ←] theorem grows_csharpProperty (modifiers name : String) :
    Grows (csharpProperty r m modifiers name) := by
  unfold csharpProperty
  grind

@[grind ←] theorem grows_csharpConstructor : Grows (csharpConstructor r m) := by
  unfold csharpConstructor
  grind

@[grind ←] theorem grows_csharpMember (inInterface : Bool) (m : Member) : Grows (csharpMember r inInterface m) := by
  unfold csharpMember
  grind

end

end Emit

end Polyglot
