import Polyglot.Emit.Conversion
import Polyglot.Emit.Creation
import Polyglot.Emit.Lambda

/-!
# Expressions

Every form of expression with the function that emits it.
-/

namespace Polyglot

namespace Emit

variable (r : Emitter)

/-- **A literal.** A negative number binds like a negation. -/
def constant (e : Expr) (c : Constant) : Emit Rendered := do
  if (← target) = .rust && c.kind = .null then unsupported e.place "null"
  else
    let text ← literal c e.static
    pure (if Text.hasLead "-" text then { text, prec := Prec.unary } else .primary text)

/-- **The current object as a value.** In C++ an object is held through the pointer that shares it. -/
def self (e : Expr) : Emit Rendered := do
  match ← target with
  | .cpp =>
    let t := (← read).decl.type
    if t.isValueType then pure (.primary "(*this)")
    else do
      let name ← typeName (some t)
      pure (.postfixed ("std::dynamic_pointer_cast<" ++ name ++ ">(shared_from_this())"))
  | .rust => unsupported e.place "this as a value"
  | _ => do pure (.primary (← dialect).this)

def base (e : Expr) : Emit Rendered := do
  if (← target) = .rust then unsupported e.place "base access" else do pure (.primary (← dialect).base)

/-- **An expression**, before it is converted to the type that its place expects. -/
def expression (isStatement : Bool) (e : Expr) : Emit Rendered :=
  match e.form with
  | .literal c => constant e c
  | .identifier => identifier r e
  | .member target => memberAccess r e target
  | .call callee typeArgs args => invocation r e callee typeArgs args
  | .creation t args elements => creation r e t args elements
  | .arrayCreation t sizes elements => arrayCreation r t sizes elements
  | .binary left right => binary r e left right
  | .unary operand => unary r isStatement e operand
  | .assign left right => assignment r e left right
  | .typed kind type operand => typed r e kind type operand
  | .conditional cond yes no => conditional r cond yes no
  | .paren inner => parenthesized r inner
  | .this => self e
  | .base => base e
  | .index target args => elementAccess r e target args
  | .lambda parameters body => lambda r parameters body
  | .anonymous elements => anonymousObject r e elements
  | .element _ =>
    throw (.assertion (e.place.text ++ ": initializer element outside of an object creation"))

end Emit

end Polyglot
