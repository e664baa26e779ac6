import Polyglot.Target.Precedence
import Polyglot.Target.TypeName
import Polyglot.Type.Conversion

/-!
# Spelling conversions

A conversion is spelled by a form: a text with marks for the converted expression and for the name of the type. There is one for
each kind of conversion and for casts that the program asks for; a target without a form for a kind leaves the expression as
it is.
-/

namespace Polyglot

/-- The spelling of a conversion. -/
structure CastForm where
  /-- The text, with marks: `{expr}` for the expression, `{type}` for the name of the type and `{owned}` for
  its name as it is declared. -/
  format : String
  /-- How tightly the converted expression has to bind. -/
  operand : Prec
  /-- How tightly the conversion binds. -/
  result : Prec
deriving Repr, DecidableEq

namespace Target

/-- The form of a conversion that is made without being asked for; nothing: it needs no text. -/
def castForm? : Target → CastKind → Option CastForm
  | cpp, .box => some ⟨"phase::box(\x7bexpr\x7d)", Prec.lowest, Prec.postfixed⟩
  | cpp, .numeric =>
    some ⟨"static_cast<\x7btype\x7d>(\x7bexpr\x7d)", Prec.lowest, Prec.postfixed⟩
  | cpp, .upcast =>
    some ⟨"std::static_pointer_cast<\x7btype\x7d>(\x7bexpr\x7d)", Prec.lowest, Prec.postfixed⟩
  | csharp, .numeric => some ⟨"(\x7btype\x7d)\x7bexpr\x7d", Prec.postfixed, Prec.unary⟩
  | java, .numeric => some ⟨"(\x7btype\x7d) \x7bexpr\x7d", Prec.postfixed, Prec.unary⟩
  | rust, .box => some ⟨"phase::boxed(\x7bexpr\x7d)", Prec.lowest, Prec.postfixed⟩
  | rust, .numeric => some ⟨"\x7bexpr\x7d as \x7btype\x7d", Prec.unary, Prec.cast⟩
  | rust, .upcast => some ⟨"\x7bexpr\x7d as \x7bowned\x7d", Prec.unary, Prec.cast⟩
  | _, _ => none

/-- The form of a cast that the program asks for. -/
def explicitForm : Target → CastForm
  | cpp => ⟨"static_cast<\x7btype\x7d>(\x7bexpr\x7d)", Prec.lowest, Prec.postfixed⟩
  | csharp => ⟨"(\x7btype\x7d)\x7bexpr\x7d", Prec.postfixed, Prec.unary⟩
  | java => ⟨"(\x7btype\x7d) \x7bexpr\x7d", Prec.postfixed, Prec.unary⟩
  | rust => ⟨"\x7bexpr\x7d as \x7btype\x7d", Prec.unary, Prec.cast⟩
  | typescript => ⟨"\x7bexpr\x7d as \x7btype\x7d", Prec.shift, Prec.relational⟩

def typeNameOpt (t : Target) (idx : TypeIndex) (own : Ownership) : Option Ty → String
  | some type => t.typeName idx own type
  | none => t.dynamicType

def ownedName (t : Target) (idx : TypeIndex) (type : Option Ty) : String :=
  t.typeNameOpt idx (t.ownership type true false) type

/-- The names of a type, each for its mark. -/
def typeMarks (t : Target) (idx : TypeIndex) (type : Option Ty) : List (String × String) :=
  [("\x7btype\x7d", t.typeNameOpt idx .value type), ("\x7bowned\x7d", t.ownedName idx type)]

/-- An expression in the place of a form. -/
def applyForm (t : Target) (idx : TypeIndex) (form : CastForm) (type : Option Ty) (r : Rendered) : Rendered where
  text := Text.replaceMarks (("\x7bexpr\x7d", r.operand form.operand) :: t.typeMarks idx type) form.format
  mode := .settled
  prec := form.result

/-- **An expression converted** from its own type to the one that its place expects. -/
def convert (t : Target) (idx : TypeIndex) (static converted : Option Ty) (r : Rendered) : Rendered :=
  if r.mode = .settled then r
  else
    match t.castForm? (CastKind.decide static converted) with
    | some form => t.applyForm idx form converted r
    | none => r

def explicitCast (t : Target) (idx : TypeIndex) (type : Option Ty) (r : Rendered) : Rendered :=
  t.applyForm idx t.explicitForm type r

/-- What stands in the way of seeing a reference through a class: in Rust only traits can be seen through,
and library classes that have the same name there. -/
def refusedUpcast? (static converted : Ty) : Option String :=
  if !converted.isDecl .classDecl then none
  else
    match rust.external? converted.definitionKey with
    | some name =>
      if rust.external? static.definitionKey = some name then none
      else some ("upcast from " ++ static.name ++ " to class " ++ converted.name)
    | none => some ("upcast from " ++ static.name ++ " to class " ++ converted.name)

def refusedCast? (t : Target) (mode : CastMode) (static converted : Option Ty) : Option String :=
  match t, mode, static, converted with
  | rust, .compare, some s, some c | rust, .compound, some s, some c =>
    if CastKind.decide static converted = .upcast then refusedUpcast? s c else none
  | _, _, _, _ => none

end Target

end Polyglot
