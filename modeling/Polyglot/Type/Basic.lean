import Polyglot.Text.Basic

/-!
# Types

A declared type is either a *definition*, which is looked up in the hierarchy whenever its supertypes are wanted, or a *closed*
type, a definition applied to arguments, which carries the supertypes it was given when it was made.

The identity of a type is its key: its qualified name with its arguments in brackets, an array with `[]` behind its element, a
parameter with `!` before its name.
-/

namespace Polyglot

/-- The built-in value types. -/
inductive Primitive where
  | bool
  | char
  | int8
  | uint8
  | int16
  | uint16
  | int32
  | uint32
  | int64
  | uint64
  | float32
  | float64
deriving Repr, DecidableEq

namespace Primitive

/-- The name of a built-in value type in the `System` namespace. -/
def name : Primitive → String
  | bool => "Boolean"
  | char => "Char"
  | int8 => "SByte"
  | uint8 => "Byte"
  | int16 => "Int16"
  | uint16 => "UInt16"
  | int32 => "Int32"
  | uint32 => "UInt32"
  | int64 => "Int64"
  | uint64 => "UInt64"
  | float32 => "Single"
  | float64 => "Double"

def all : List Primitive :=
  [bool, char, int8, uint8, int16, uint16, int32, uint32, int64, uint64, float32, float64]

/-- Integers, characters included. -/
def isIntegral : Primitive → Bool
  | bool | float32 | float64 => false
  | _ => true

def isFloating : Primitive → Bool
  | float32 | float64 => true
  | _ => false

def isNumeric (p : Primitive) : Bool := p.isIntegral || p.isFloating

def isUnsigned : Primitive → Bool
  | char | uint8 | uint16 | uint32 | uint64 => true
  | _ => false

def bits : Primitive → Nat
  | int8 | uint8 => 8
  | char | int16 | uint16 => 16
  | int32 | uint32 | float32 => 32
  | int64 | uint64 | float64 => 64
  | bool => 0

end Primitive

inductive DeclKind where
  | classDecl
  | interfaceDecl
  | structDecl
  | enumDecl
  | delegateDecl
deriving Repr, DecidableEq, Inhabited

namespace DeclKind

def text : DeclKind → String
  | classDecl => "class"
  | interfaceDecl => "interface"
  | structDecl => "struct"
  | enumDecl => "enum"
  | delegateDecl => "delegate"

def ofText? : String → Option DeclKind
  | "class" => some classDecl
  | "interface" => some interfaceDecl
  | "struct" => some structDecl
  | "enum" => some enumDecl
  | "delegate" => some delegateDecl
  | _ => none

end DeclKind

/-- What is fixed about a declared type by its declaration: its kind, its name, its type parameters
and the name it is given in emitted code (empty: its own). -/
structure TypeHead where
  kind : DeclKind
  space : String
  name : String
  params : List String := []
  rename : String := ""
deriving Repr, DecidableEq, Inhabited

def qualify (space name : String) : String := if space = "" then name else space ++ "." ++ name

def splitQualified (name : String) : String × String := (Text.cutLast? '.' name).getD ("", name)

/-- A name with its number of type parameters. -/
def arityKey (qualified : String) (arity : Nat) : String :=
  if arity = 0 then qualified else qualified ++ "`" ++ Text.decimal arity

namespace TypeHead

def qualified (h : TypeHead) : String := qualify h.space h.name

def arity (h : TypeHead) : Nat := h.params.length

/-- The key of the definition: name and number of type parameters. -/
def key (h : TypeHead) : String := arityKey h.qualified h.arity

end TypeHead

inductive Ty where
  | void
  | null
  /-- The root of the reference types. -/
  | object
  /-- Bound when the program runs. -/
  | dynamic
  | string
  | primitive (p : Primitive)
  | array (elem : Ty)
  | param (name : String)
  /-- A definition; a generic one stands for itself applied to its own parameters. -/
  | named (head : TypeHead)
  /-- A definition applied to arguments, with the supertypes it was given. -/
  | closed (head : TypeHead) (args : List Ty) (base : Option Ty) (interfaces : List Ty)
deriving Repr

namespace Ty

def fullName : Ty → String × String
  | void => ("System", "Void")
  | null => ("", "null")
  | object => ("System", "Object")
  | dynamic => ("", "dynamic")
  | string => ("System", "String")
  | primitive p => ("System", p.name)
  | array _ => ("", "")
  | param n => ("", n)
  | named h | closed h _ _ _ => (h.space, h.name)

def space (t : Ty) : String := t.fullName.1

def name (t : Ty) : String := t.fullName.2

/-- The name of a type inside its namespace, without arguments. -/
def qualified (t : Ty) : String := qualify t.space t.name

def head? : Ty → Option TypeHead
  | named h | closed h _ _ _ => some h
  | _ => none

def declKind? (t : Ty) : Option DeclKind := t.head?.map (·.kind)

def definition : Ty → Ty
  | closed h _ _ _ => named h
  | t => t

def definitionKey (t : Ty) : String :=
  match t.head? with
  | some h => h.key
  | none => t.qualified

/-- The arguments that a type shows: those it is applied to, or its own parameters. -/
def typeArgs : Ty → List Ty
  | named h => h.params.map param
  | closed _ args _ _ => args
  | _ => []

mutual

/-- **The key of a type**, which is its identity. -/
def key : Ty → String
  | array e => e.key ++ "[]"
  | param n => "!" ++ n
  | closed h args _ _ =>
    h.qualified ++ (if args.isEmpty then "" else "<" ++ Text.join "," (keys args) ++ ">")
  | named h =>
    h.qualified ++
      (if h.params.isEmpty then "" else "<" ++ Text.join "," (h.params.map ("!" ++ ·)) ++ ">")
  | void => "System.Void"
  | null => "null"
  | object => "System.Object"
  | dynamic => "dynamic"
  | string => "System.String"
  | primitive p => "System." ++ p.name

def keys : List Ty → List String
  | [] => []
  | t :: ts => t.key :: keys ts

end

def same (a b : Ty) : Bool := a.key == b.key

def kindText : Ty → String
  | void => "void"
  | null => "null"
  | object => "object"
  | dynamic => "dynamic"
  | string => "string"
  | primitive _ => "primitive"
  | array _ => "array"
  | param _ => "typeparam"
  | named h | closed h _ _ _ => h.kind.text

def isDecl (k : DeclKind) (t : Ty) : Bool := t.declKind? == some k

def isValueType (t : Ty) : Bool :=
  match t with
  | primitive _ => true
  | _ => t.isDecl .structDecl || t.isDecl .enumDecl

def isReferenceType (t : Ty) : Bool :=
  match t with
  | array _ | object | string | dynamic => true
  | _ => t.isDecl .classDecl || t.isDecl .interfaceDecl || t.isDecl .delegateDecl

def primitive? : Ty → Option Primitive
  | primitive p => some p
  | _ => none

def isNumeric : Ty → Bool
  | primitive p => p.isNumeric
  | _ => false

/-- A type whose values may be anything. -/
def isUntyped : Ty → Bool
  | object | dynamic => true
  | _ => false

def isEnumerable (t : Ty) : Bool :=
  t.isDecl .interfaceDecl && t.name == "IEnumerable" &&
    (t.space == "System.Collections" || t.space == "System.Collections.Generic")

def isArray : Ty → Bool
  | array _ => true
  | _ => false

def isParam : Ty → Bool
  | param _ => true
  | _ => false

def isNull : Ty → Bool
  | null => true
  | _ => false

def isString : Ty → Bool
  | string => true
  | _ => false

def isVoid : Ty → Bool
  | void => true
  | _ => false

def isPrimitive (t : Ty) : Bool := t.primitive?.isSome

abbrev bool : Ty := primitive .bool

abbrev char : Ty := primitive .char

abbrev int : Ty := primitive .int32

def enumerableHead : TypeHead := ⟨.interfaceDecl, "System.Collections", "IEnumerable", [], ""⟩

def enumerableOfHead : TypeHead :=
  ⟨.interfaceDecl, "System.Collections.Generic", "IEnumerable", ["T"], ""⟩

def builtins : List (String × Ty) :=
  [("System.Void", void), ("System.Object", object), ("System.String", string), ("dynamic", dynamic)] ++
    Primitive.all.map (fun p => ("System." ++ p.name, primitive p)) ++
    [(enumerableHead.key, named enumerableHead), (enumerableOfHead.key, named enumerableOfHead)]

def alias? : String → Option Ty
  | "void" => some void
  | "object" => some object
  | "dynamic" => some dynamic
  | "string" => some string
  | "bool" => some bool
  | "char" => some char
  | "sbyte" => some (primitive .int8)
  | "byte" => some (primitive .uint8)
  | "short" => some (primitive .int16)
  | "ushort" => some (primitive .uint16)
  | "int" => some int
  | "uint" => some (primitive .uint32)
  | "long" => some (primitive .int64)
  | "ulong" => some (primitive .uint64)
  | "float" => some (primitive .float32)
  | "double" => some (primitive .float64)
  | _ => none

end Ty

end Polyglot
