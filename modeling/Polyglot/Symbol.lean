import Polyglot.Type.Hierarchy

/-!
# Symbols

A symbol is a declared thing that a name can mean: a type, a member, a parameter or a local. Its key
tells symbols apart: the identity that the document gives it, or its container, name and, for what can
be called, the types of its parameters.
-/

namespace Polyglot

inductive SymbolKind where
  | unknown
  | type
  | method
  | constructor
  | field
  | property
  | event
  | operator
  | parameter
  | local
  | enumValue
deriving Repr, DecidableEq, Inhabited

def SymbolKind.text : SymbolKind → String
  | unknown => "unknown"
  | type => "type"
  | method => "method"
  | constructor => "constructor"
  | field => "field"
  | property => "property"
  | event => "event"
  | operator => "operator"
  | parameter => "parameter"
  | «local» => "local"
  | enumValue => "enumvalue"

inductive Access where
  | «private»
  | «protected»
  | internal
  | «public»
deriving Repr, DecidableEq

namespace Access

def text : Access → String
  | «private» => "private"
  | «protected» => "protected"
  | internal => "internal"
  | «public» => "public"

/-- The access that a word names; any other word is the narrowest. -/
def ofText : String → Access
  | "protected" => «protected»
  | "internal" => internal
  | "public" => «public»
  | _ => «private»

end Access

inductive Passing where
  | byValue
  | byRef
  | byOut
  | byIn
deriving Repr, DecidableEq

namespace Passing

def text : Passing → String
  | byValue => ""
  | byRef => "ref"
  | byOut => "out"
  | byIn => "in"

def ofText? : String → Option Passing
  | "" => some byValue
  | "ref" => some byRef
  | "out" => some byOut
  | "in" => some byIn
  | _ => none

end Passing

inductive CallerInfo where
  | memberName
  | filePath
  | lineNumber
deriving Repr, DecidableEq

namespace CallerInfo

def text : CallerInfo → String
  | memberName => "memberName"
  | filePath => "filePath"
  | lineNumber => "lineNumber"

/-- The piece that a word names; the empty word names none. -/
def ofText? : String → Option (Option CallerInfo)
  | "" => some none
  | "memberName" => some (some memberName)
  | "filePath" => some (some filePath)
  | "lineNumber" => some (some lineNumber)
  | _ => none

end CallerInfo

/-! ## Constants -/

inductive ConstantKind where
  | null
  | bool
  | int
  | float
  | string
  | char
deriving Repr, DecidableEq

def ConstantKind.text : ConstantKind → String
  | null => "null"
  | bool => "bool"
  | int => "int"
  | float => "float"
  | string => "string"
  | char => "char"

/-- A constant, as it is spelled; texts and characters without quotes. -/
structure Constant where
  kind : ConstantKind
  text : String
deriving Repr, DecidableEq

/-! ## Parameters and symbols -/

/-- The value of a parameter that a call leaves out: a constant, or a tree of the compilation, by its
number, with its type. -/
inductive Default where
  | constant (c : Constant)
  | expression (index : Nat) (type : Option Ty)
deriving Repr

structure Parameter where
  name : String
  type : Ty
  passing : Passing := .byValue
  /-- Takes the rest of the arguments, as an array. -/
  isVariadic : Bool := false
  isOptional : Bool := false
  /-- Takes the receiver of an extension method. -/
  isThis : Bool := false
  default : Option Default := none
  callerInfo : Option CallerInfo := none
deriving Repr

/-- What a name may mean. -/
structure Symbol where
  /-- An identity of its own; empty: none. -/
  id : String := ""
  kind : SymbolKind
  name : String
  container : Option Ty := none
  type : Option Ty := none
  parameters : List Parameter := []
  typeParameters : List String := []
  access : Access := .private
  isStatic : Bool := false
  isExtension : Bool := false
  isVirtual : Bool := false
  isAbstract : Bool := false
  isOverride : Bool := false
  /-- A field that does not own what it refers to. -/
  isWeak : Bool := false
  isReadOnly : Bool := false
  /-- The name in emitted code; empty: its own. -/
  rename : String := ""
deriving Repr, Inhabited

namespace Symbol

def isCallable (s : Symbol) : Bool := s.kind = .method || s.kind = .constructor || s.kind = .operator

def key (s : Symbol) : String :=
  if s.id ≠ "" then s.id
  else
    let owner := (s.container.map (fun t => t.definitionKey ++ ".")).getD ""
    let signature :=
      if s.isCallable then "(" ++ Text.join "," (s.parameters.map (·.type.key)) ++ ")" else ""
    owner ++ s.name ++ signature

/-- The name in emitted code, before it is fitted to the target. -/
def targetName (s : Symbol) : String := if s.rename = "" then s.name else s.rename

def variadic? (s : Symbol) : Option Parameter := s.parameters.getLast?.filter (·.isVariadic)

def describe (s : Symbol) : String :=
  s.kind.text ++ " " ++ s.key ++ ((s.type.map (fun t => " : " ++ t.key)).getD "")

end Symbol

/-! ## Operators -/

def operatorMethods : List (String × String) :=
  [("op_Addition", "+"), ("op_Subtraction", "-"), ("op_Multiply", "*"), ("op_Division", "/"),
    ("op_Modulus", "%"), ("op_Equality", "=="), ("op_Inequality", "!="), ("op_LessThan", "<"),
    ("op_GreaterThan", ">"), ("op_LessThanOrEqual", "<="), ("op_GreaterThanOrEqual", ">="),
    ("op_UnaryNegation", "-"), ("op_LogicalNot", "!"), ("op_BitwiseAnd", "&"), ("op_BitwiseOr", "|"),
    ("op_ExclusiveOr", "^")]

def operatorToken (method : String) : String := (operatorMethods.lookup method).getD ""

/-- The method that defines a token for a number of operands; a token that no method defines, and the
name of a method, stay themselves. -/
def operatorMethod (name : String) (operands : Nat) : String :=
  if Text.hasLead "op_" name then name
  else if operands = 1 && name = "-" then "op_UnaryNegation"
  else if operands = 1 && name = "!" then "op_LogicalNot"
  else
    match operatorMethods.find? (fun row =>
      row.2 = name && row.1 ≠ "op_UnaryNegation" && row.1 ≠ "op_LogicalNot") with
    | some row => row.1
    | none => name

end Polyglot
