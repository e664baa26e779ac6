import Polyglot.Emit.Operator

/-!
# Types in expressions

Casts, type tests, conversions that may fail, zero values and types as values. What a target cannot test
when the program runs is unsupported there.
-/

namespace Polyglot

mutual

/-- **May an expression be evaluated twice without anyone noticing?** Nothing in parentheses is a crash. -/
def Expr.isSimple : Expr → Except Fault Bool
  | .node _ form => form.isSimple

def ExprForm.isSimple : ExprForm → Except Fault Bool
  | .identifier | .this | .literal _ => .ok true
  | .member target => isSimpleOr target (.ok false)
  | .paren inner => isSimpleOr inner (.error (.crash none))
  | _ => .ok false

/-- May an expression be evaluated twice? Where it is missing, the answer is given. -/
def isSimpleOr : Option Expr → Except Fault Bool → Except Fault Bool
  | none, missing => missing
  | some e, _ => e.isSimple

end

/-- May the operand be evaluated twice? -/
def simpleOperand (e : Option Expr) : Except Fault Bool := isSimpleOr e (.error (.crash none))

def isBoxed (t : Option Ty) : Bool := t.any fun t => t.isValueType || t.isString

/-- The word that tells values of a type when a TypeScript program runs, for types that are no classes. -/
def typeofTag? (t : Option Ty) : Option String :=
  match t with
  | some (.primitive p) => some (Target.primitive .typescript p)
  | some .string => some "string"
  | some t => if t.isDecl .enumDecl then some "number" else none
  | none => none

namespace Emit

variable (r : Emitter)

/-! ## Casts -/

/-- A cast, where the target has no other way to write it. -/
def plainCast (type : Option Ty) (x : Rendered) : Emit Rendered := do
  note type
  pure ((← target).explicitCast (← index) type x)

/-- A cast in C++: out of a box, between references, or between values. -/
def cppCast (type : Option Ty) (source : Option Ty) (x : Rendered) : Emit Rendered := do
  noteFull type
  match type with
  | none => crash
  | some t =>
    let name ← nameOf type .value
    if source.any (·.isUntyped) && (t.isPrimitive || t.isString || t.isDecl .structDecl) then
      pure (.settled ("phase::unbox<" ++ name ++ ">(" ++ x.text ++ ")"))
    else if t.isReferenceType && !t.isHeldDirectly then
      let hierarchy := (← read).world.hierarchy
      let isUpcast := source.any fun s => hierarchy.assignable s t
      let cast := if isUpcast then "std::static_pointer_cast" else "std::dynamic_pointer_cast"
      pure (.settled (cast ++ "<" ++ name ++ ">(" ++ x.text ++ ")"))
    else pure ((← target).explicitCast (← index) type x)

/-- A cast in Rust, which knows no way down from a supertype. -/
def rustCast (e : Expr) (type : Option Ty) (source : Option Ty) (x : Rendered) : Emit Rendered := do
  noteFull type
  match type with
  | none => crash
  | some t =>
    let tgt ← target
    if source.any (·.isUntyped) && !t.isUntyped then
      let name ← nameOf type (tgt.ownership type true false)
      pure (.settled ("phase::unboxed::<" ++ name ++ ">(&" ++ borrowed x.text ++ ")"))
    else if t.isDecl .enumDecl && source.any (·.isPrimitive) then
      unsupported e.place "integer to enum conversion"
    else if t.isString || t.isDecl .delegateDecl then pure x
    else if t.isReferenceType then
      match source with
      | none => unsupported e.place ("downcast to " ++ t.name)
      | some s =>
        if !(← read).world.hierarchy.assignable s t then unsupported e.place ("downcast to " ++ t.name)
        else
          match (if s.same t then none else Target.refusedUpcast? s t) with
          | some what => unsupported e.place what
          | none =>
            match tgt.castForm? .upcast with
            | some form => pure (tgt.applyForm (← index) form type x)
            | none => pure x
    else pure (tgt.explicitCast (← index) type x)

/-- A cast in TypeScript, where all numbers are of one type. -/
def typescriptCast (type : Option Ty) (source : Option Ty) (x : Rendered) : Emit Rendered := do
  if isIntegral type && isFloating source then pure (.settled ("Math.trunc(" ++ x.text ++ ")"))
  else if type.any (·.isPrimitive) && source.any (·.isPrimitive) then pure x
  else plainCast type x

def cast (e : Expr) (type : Option Ty) (operand : Option Expr) : Emit Rendered := do
  let x ← r.value operand
  let source := staticOf operand
  match ← target with
  | .cpp => cppCast type source x
  | .csharp | .java => plainCast type x
  | .rust => rustCast e type source x
  | .typescript => typescriptCast type source x

/-! ## Type tests -/

def typeTest (e : Expr) (type : Option Ty) (operand : Option Expr) : Emit Rendered := do
  let name := e.mark.name
  match ← target with
  | .cpp =>
    if name ≠ "" then unsupported e.place "declaration pattern"
    else
      let x ← r.value operand
      let tested ← fullName type
      let tested := if isBoxed type then "phase::Boxed<" ++ tested ++ ">" else tested
      pure (.compound ("std::dynamic_pointer_cast<" ++ tested ++ ">(" ++ x.text ++ ") != nullptr") Prec.equality)
  | .csharp =>
    let x ← r.operand operand Prec.relational
    let text := x ++ " is " ++ (← typeName type)
    let bound ← fitted name
    pure (.compound (if name = "" then text else text ++ " " ++ bound) Prec.relational)
  | .java =>
    let x ← r.operand operand Prec.relational
    let text := x ++ " instanceof " ++ (← typeName type)
    let bound ← fitted name
    pure (.compound (if name = "" then text else text ++ " " ++ bound) Prec.relational)
  | .rust => unsupported e.place "type test"
  | .typescript =>
    if type.any (·.isDecl .interfaceDecl) then unsupported e.place "type test against an interface"
    else if name ≠ "" then unsupported e.place "declaration pattern"
    else
      match typeofTag? type with
      | some tag =>
        let x ← r.operand operand Prec.unary
        pure (.compound ("typeof " ++ x ++ " === \"" ++ tag ++ "\"") Prec.equality)
      | none =>
        let x ← r.operand operand Prec.relational
        pure (.compound (x ++ " instanceof " ++ (← typeReference type)) Prec.relational)

/-- **A conversion that gives null when it fails.** Java and TypeScript evaluate the operand twice. -/
def safeCast (e : Expr) (type : Option Ty) (operand : Option Expr) : Emit Rendered := do
  match ← target with
  | .cpp =>
    if isBoxed type then
      unsupported e.place ("as conversion to value type " ++ ((type.map (·.name)).getD ""))
    else
      let x ← r.value operand
      pure (.settled ("std::dynamic_pointer_cast<" ++ (← fullName type) ++ ">(" ++ x.text ++ ")"))
  | .csharp =>
    let x ← r.operand operand Prec.relational
    pure (.compound (x ++ " as " ++ (← typeName type)) Prec.relational)
  | .java =>
    if !(← ofExcept (simpleOperand operand)) then unsupported e.place "as on a compound operand"
    else
      let x ← r.operand operand Prec.relational
      let name ← typeName type
      pure (.compound (x ++ " instanceof " ++ name ++ " ? (" ++ name ++ ") " ++ x ++ " : null") Prec.conditional)
  | .rust => unsupported e.place "as conversion"
  | .typescript =>
    if !(← ofExcept (simpleOperand operand)) || type.any (·.isDecl .interfaceDecl) then
      unsupported e.place "as conversion"
    else
      match typeofTag? type with
      | some tag =>
        let x ← r.operand operand Prec.unary
        pure (.compound ("typeof " ++ x ++ " === \"" ++ tag ++ "\" ? " ++ x ++ " : null") Prec.conditional)
      | none =>
        let x ← r.operand operand Prec.relational
        pure (.compound (x ++ " instanceof " ++ (← typeReference type) ++ " ? " ++ x ++ " : null")
          Prec.conditional)

/-! ## Zero values and types as values -/

/-- **The zero value of a type**; without one, of the type that its place expects. -/
def zeroValue (e : Expr) (type : Option Ty) : Emit Rendered := do
  let t := type.or e.converted
  note t
  pure { text := ← defaultValue t, mode := .settled, prec := Prec.primary }

def typeValue (e : Expr) (type : Option Ty) : Emit Rendered := do
  match ← target with
  | .cpp => do pure (.postfixed ("typeid(" ++ (← fullName type) ++ ")"))
  | .csharp => do pure (.postfixed ("typeof(" ++ (← typeName type) ++ ")"))
  | _ => unsupported e.place "typeof"

def typed (e : Expr) (kind : TypedKind) (type : Option Ty) (operand : Option Expr) : Emit Rendered :=
  match kind with
  | .cast => cast r e type operand
  | .is => typeTest r e type operand
  | .as => safeCast r e type operand
  | .default => zeroValue e type
  | .typeOf => typeValue e type

end Emit

end Polyglot
