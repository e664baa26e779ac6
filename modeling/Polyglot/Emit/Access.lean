import Polyglot.Emit.Emitter

/-!
# Members of an object

How the receiver of a member is spelled, and how fields, properties and methods are reached through it.
C++, Java and Rust have no properties: reading and writing one are calls of two methods.

In Rust a value that is not copied by itself is cloned when it is read. A clone that is only going to be
borrowed is dropped again (`borrowed`).
-/

namespace Polyglot

/-- What stands before a member. -/
inductive Receiver where
  /-- The current object, named or not. -/
  | self
  /-- The current object, seen as its base type. -/
  | base
  | value (type : Option Ty) (r : Rendered)

/-- The base class of the declaration that is emitted; the root type does not count. -/
def Scene.baseClass (s : Scene) : Option Ty :=
  (s.world.hierarchy.supers s.decl.head).base.filter (·.isDecl .classDecl)

def Scene.interfaces (s : Scene) : List Ty := (s.world.hierarchy.supers s.decl.head).interfaces

/-- A text without its clone. -/
def borrowed (text : String) : String := Text.dropTail ".clone()" text

def isCopied (t : Option Ty) : Bool := t.any fun t => t.isPrimitive || t.isDecl .enumDecl

def backingField (s : Symbol) : String := Text.lowerFirst s.targetName ++ "_"

namespace Target

/-- The method that reads a property, in a target without properties. -/
def getter? (t : Target) (property : Symbol) : Option String :=
  match t with
  | cpp => some ("get_" ++ property.targetName)
  | java =>
    let isFlag := property.type.any (·.primitive? = some .bool)
    some ((if isFlag then "is" else "get") ++ property.targetName)
  | rust => some ("get_" ++ Text.snakeCase property.targetName)
  | _ => none

def setter? (t : Target) (property : Symbol) : Option String :=
  match t with
  | cpp => some ("set_" ++ property.targetName)
  | java => some ("set" ++ property.targetName)
  | rust => some ("set_" ++ Text.snakeCase property.targetName)
  | _ => none

/-- The method that reads a property; empty in a target with properties. -/
def getter (t : Target) (property : Symbol) : String := (t.getter? property).getD ""

def setter (t : Target) (property : Symbol) : String := (t.setter? property).getD ""

end Target

namespace Emit

/-! ## Receivers -/

def cppBase : Emit String := do
  match (← read).baseClass with
  | some t => do pure ((← typeName (some t)) ++ "::")
  | none => pure "this->"

/-- How a value is borrowed in Rust before a member of it is used: mutably when it is called or changed. -/
def rustBorrow (type : Option Ty) (isCall : Bool) : Emit String := do
  let mutating := (← get).mutating
  if type.any (fun t => t.isValueType || t.isString) then pure "."
  else if type.isNone || isCall || mutating then pure ".borrow_mut()."
  else pure ".borrow()."

/-- **A receiver and what joins it to a member.** `isCall` says that the member is a method or a
property. -/
def receiverText (receiver : Receiver) (isCall : Bool) : Emit String := do
  let d ← dialect
  match ← target, receiver with
  | .cpp, .self => pure "this->"
  | .cpp, .base => cppBase
  | .cpp, .value type r =>
    pure (r.operand Prec.postfixed ++ (if type.any (·.isValueType) then "." else "->"))
  | .rust, .self | .rust, .base => pure "self."
  | .rust, .value type r => do pure (borrowed (r.operand Prec.postfixed) ++ (← rustBorrow type isCall))
  | _, .self => pure (d.this ++ d.dot)
  | _, .base => pure (d.base ++ d.dot)
  | _, .value _ r => pure (r.operand Prec.postfixed ++ d.dot)

/-- The receiver that an expression is; none is the current object. -/
def receiverOf (r : Emitter) (target : Option Expr) : Emit Receiver := do
  match target.map Expr.form with
  | none | some .this => pure .self
  | some .base => pure .base
  | some _ => do pure (.value (staticOf target) (← r.value target))

/-- What stands before a member: the type that it belongs to, or its receiver. -/
def memberLead (r : Emitter) (target : Option Expr) (s : Symbol) : Emit String := do
  if s.isStatic || s.kind = .enumValue then
    pure ((← typeReference s.container) ++ (← dialect).scope)
  else receiverText (← receiverOf r target) (s.kind = .method || s.kind = .property)

/-! ## Properties and fields -/

def propertyGet (lead : String) (property : Symbol) : Emit Rendered := do
  match (← target).getter? property with
  | some getter => pure (.postfixed (lead ++ getter ++ "()"))
  | none => do pure (.postfixed (lead ++ (← symbolName property)))

/-- A property is written. A compound assignment reads it first. -/
def propertySet (lead : String) (property : Symbol) (op : String) (value : Rendered) : Emit Rendered := do
  let t ← target
  match t.getter? property, t.setter? property with
  | some getter, some setter =>
    let value :=
      if op = "=" then value.text
      else
        let op := assignedOperator op
        let p := t.precedence op
        lead ++ getter ++ "()" ++ " " ++ op ++ " " ++ value.operand (p + 1)
    pure (.settled (lead ++ setter ++ "(" ++ value ++ ")"))
  | _, _ =>
    pure (.compound (lead ++ (← symbolName property) ++ " " ++ op ++ " " ++ value.operand Prec.assignment)
      Prec.assignment)

/-- A field or an event is read. Weak references are locked, unless they are about to be changed. -/
def fieldGet (lead : String) (field : Symbol) : Emit Rendered := do
  let text := lead ++ (← symbolName field)
  let mutating := (← get).mutating
  match ← target with
  | .cpp => pure (.postfixed (if field.isWeak && !mutating then text ++ ".lock()" else text))
  | .rust =>
    pure (.postfixed (
      if mutating then text
      else if field.isWeak then text ++ ".upgrade().unwrap()"
      else if isCopied field.type then text
      else text ++ ".clone()"))
  | _ => pure (.postfixed text)

/-! ## Methods -/

def closureArguments (count : Nat) : String :=
  Text.join ", " ((List.range count).map fun i => "a" ++ Text.decimal i)

def methodGroup (lead : String) (method : Symbol) : Emit Rendered := do
  let name ← symbolName method
  match ← target with
  | .cpp =>
    pure (.postfixed ("[=](auto&&... args) \x7b return " ++ lead ++ name ++
      "(std::forward<decltype(args)>(args)...); \x7d"))
  | .java => pure (.postfixed (Text.dropTail "." lead ++ "::" ++ name))
  | .rust =>
    if method.isStatic then
      let args := closureArguments method.parameters.length
      pure (.postfixed ("Rc::new(|" ++ args ++ "| " ++ lead ++ name ++ "(" ++ args ++ "))"))
    else unsupported {} ("instance method group " ++ method.name)
  | _ => pure (.postfixed (lead ++ name))

def delegateCall (callee : Rendered) (args : List String) : Emit Rendered := do
  let args := "(" ++ Text.join ", " args ++ ")"
  match ← target with
  | .java => pure (.postfixed (callee.operand Prec.postfixed ++ ".invoke" ++ args))
  | .rust => pure (.postfixed ("(" ++ callee.text ++ ")" ++ args))
  | _ => pure (.postfixed (callee.operand Prec.postfixed ++ args))

/-- An operator method is called: by its operator in C++ and C#, and by its name elsewhere. -/
def operatorCall (method : Symbol) (operands : List Rendered) : Emit Rendered := do
  let t ← target
  match t with
  | .cpp | .csharp =>
    let token := operatorToken method.name
    match operands with
    | [operand] => pure (.compound (token ++ operand.operand Prec.unary) Prec.unary)
    | left :: right :: _ =>
      let p := t.precedence token
      pure (.compound (left.operand p ++ " " ++ token ++ " " ++ right.operand (p + 1)) p)
    | [] => crash
  | _ =>
    pure (.postfixed ((← typeReference method.container) ++ t.dialect.scope ++ method.name ++ "(" ++
      Text.join ", " (operands.map (·.text)) ++ ")"))

end Emit

end Polyglot
