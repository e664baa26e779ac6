import Polyglot.Target.Naming
import Polyglot.Type.Index

/-!
# Spelling types

Targets that manage memory by ownership (C++ and Rust) hold references in shared or weak pointers, and spell the same type in
different ways where it is declared and where it is used. Inside, array elements and type arguments are always spelled as they
are declared.
-/

namespace Polyglot

/-- How a reference is held. -/
inductive Ownership where
  /-- By itself, without a pointer. -/
  | value
  | sharedDeclaration
  | sharedUsage
  | weakDeclaration
  | weakUsage
deriving Repr, DecidableEq

namespace Ownership

def all : List Ownership := [value, sharedDeclaration, sharedUsage, weakDeclaration, weakUsage]

def text : Ownership → String
  | value => "value"
  | sharedDeclaration => "shared-decl"
  | sharedUsage => "shared-use"
  | weakDeclaration => "weak-decl"
  | weakUsage => "weak-use"

end Ownership

namespace Ty

def isHeldDirectly (t : Ty) : Bool :=
  match t with
  | .string | .dynamic | .param _ => true
  | t => t.isDecl .delegateDecl || t.isValueType

end Ty

namespace Target

/-! ## Words -/

def primitive : Target → Primitive → String
  | cpp, p =>
    match p with
    | .bool => "bool"
    | .char => "char16_t"
    | .int8 => "std::int8_t"
    | .uint8 => "std::uint8_t"
    | .int16 => "std::int16_t"
    | .uint16 => "std::uint16_t"
    | .int32 => "std::int32_t"
    | .uint32 => "std::uint32_t"
    | .int64 => "std::int64_t"
    | .uint64 => "std::uint64_t"
    | .float32 => "float"
    | .float64 => "double"
  | csharp, p =>
    match p with
    | .bool => "bool"
    | .char => "char"
    | .int8 => "sbyte"
    | .uint8 => "byte"
    | .int16 => "short"
    | .uint16 => "ushort"
    | .int32 => "int"
    | .uint32 => "uint"
    | .int64 => "long"
    | .uint64 => "ulong"
    | .float32 => "float"
    | .float64 => "double"
  | java, p =>
    match p with
    | .bool => "boolean"
    | .char => "char"
    | .int8 => "byte"
    | .int16 => "short"
    | .uint8 | .uint16 | .int32 => "int"
    | .uint32 | .int64 | .uint64 => "long"
    | .float32 => "float"
    | .float64 => "double"
  | rust, p =>
    match p with
    | .bool => "bool"
    | .char | .uint16 => "u16"
    | .int8 => "i8"
    | .uint8 => "u8"
    | .int16 => "i16"
    | .int32 => "i32"
    | .uint32 => "u32"
    | .int64 => "i64"
    | .uint64 => "u64"
    | .float32 => "f32"
    | .float64 => "f64"
  | typescript, p =>
    match p with
    | .bool => "boolean"
    | .char => "string"
    | _ => "number"

/-- The name of a primitive type as a type argument. -/
def boxedPrimitive : Target → Primitive → String
  | java, p =>
    match p with
    | .bool => "Boolean"
    | .char => "Character"
    | .int8 => "Byte"
    | .int16 => "Short"
    | .uint8 | .uint16 | .int32 => "Integer"
    | .uint32 | .int64 | .uint64 => "Long"
    | .float32 => "Float"
    | .float64 => "Double"
  | t, p => t.primitive p

def stringType : Target → String
  | cpp => "std::string"
  | java | rust => "String"
  | _ => "string"

def objectType : Target → String
  | cpp => "phase::Object"
  | csharp => "object"
  | java => "Object"
  | rust => "dyn std::any::Any"
  | typescript => "any"

/-- The name of the type of what is bound late, and of what has no type. -/
def dynamicType : Target → String
  | cpp => "std::any"
  | csharp => "dynamic"
  | java => "Object"
  | rust => "Rc<RefCell<dyn std::any::Any>>"
  | typescript => "any"

def voidType : Target → String
  | rust => "()"
  | _ => "void"

/-- What joins the parts of a qualified name. -/
def separator : Target → String
  | cpp | rust => "::"
  | _ => "."

def spaceSegment : Target → String → String
  | java, s => Text.lowerCase s
  | _, s => s

def arrayOf : Target → String → String
  | cpp, e => "std::vector<" ++ e ++ ">"
  | rust, e => "Vec<" ++ e ++ ">"
  | typescript, e =>
    if e.toList.any (fun c => c = ' ' || c = '|' || c = '&') then "Array<" ++ e ++ ">" else e ++ "[]"
  | _, e => e ++ "[]"

def qualifies (t : Target) : Bool := t = cpp

/-- A name may be declared at several numbers of type parameters. -/
def overloadsArity (t : Target) : Bool := t = csharp

/-- The library types that a target has under another name, by the key of their definition. -/
def externals : Target → List (String × String)
  | cpp => [
      ("System.Exception", "phase::Exception"),
      ("System.ArgumentException", "phase::ArgumentException"),
      ("System.InvalidOperationException", "phase::InvalidOperationException"),
      ("System.Collections.Generic.List`1", "std::vector"),
      ("System.Collections.Generic.Dictionary`2", "std::map"),
      ("System.Collections.Generic.HashSet`1", "std::unordered_set"),
      ("System.Action", "std::function<void()>")]
  | csharp => []
  | java => [
      ("System.Exception", "java.lang.RuntimeException"),
      ("System.ArgumentException", "java.lang.IllegalArgumentException"),
      ("System.InvalidOperationException", "java.lang.IllegalStateException"),
      ("System.Collections.Generic.List`1", "java.util.ArrayList"),
      ("System.Collections.Generic.Dictionary`2", "java.util.HashMap"),
      ("System.Collections.Generic.HashSet`1", "java.util.HashSet"),
      ("System.Action", "java.lang.Runnable")]
  | rust => [
      ("System.Exception", "phase::Exception"),
      ("System.ArgumentException", "phase::Exception"),
      ("System.InvalidOperationException", "phase::Exception"),
      ("System.Collections.Generic.List`1", "Vec"),
      ("System.Collections.Generic.Dictionary`2", "std::collections::HashMap"),
      ("System.Collections.Generic.HashSet`1", "std::collections::HashSet")]
  | typescript => [
      ("System.Exception", "Error"),
      ("System.ArgumentException", "Error"),
      ("System.InvalidOperationException", "Error"),
      ("System.Collections.Generic.List`1", "Array"),
      ("System.Collections.Generic.Dictionary`2", "Map"),
      ("System.Collections.Generic.HashSet`1", "Set")]

def external? (t : Target) (key : String) : Option String := t.externals.lookup key

/-! ## Ownership -/

/-- The target collects garbage, so that references are held by themselves. -/
def collectsGarbage : Target → Bool
  | cpp | rust => false
  | _ => true

def hold : Target → Ownership → String → String
  | _, .value, name => name
  | cpp, .sharedDeclaration, name | cpp, .weakUsage, name => "std::shared_ptr<" ++ name ++ ">"
  | cpp, .sharedUsage, name => "const std::shared_ptr<" ++ name ++ ">&"
  | cpp, .weakDeclaration, name => "std::weak_ptr<" ++ name ++ ">"
  | rust, .weakDeclaration, name => "Weak<RefCell<" ++ name ++ ">>"
  | rust, _, name => "Rc<RefCell<" ++ name ++ ">>"
  | _, _, name => name

def ownership (t : Target) (type : Option Ty) (isDeclaration isWeak : Bool) : Ownership :=
  match type with
  | none => .value
  | some type =>
    if t.collectsGarbage || type.isHeldDirectly || !type.isReferenceType then .value
    else
      match isWeak, isDeclaration with
      | true, true => .weakDeclaration
      | true, false => .weakUsage
      | false, true => .sharedDeclaration
      | false, false => .sharedUsage

/-- How an array element or a type argument is held. -/
def declared (t : Target) (type : Ty) : Ownership := t.ownership (some type) true false

/-! ## Names of declared types -/

/-- The namespace and the name that a declaration is emitted under, before they are fitted to the target. A
new name with a dot also moves the type to another namespace. -/
def emittedName (h : TypeHead) : String × String :=
  if h.rename = "" then (h.space, h.name)
  else
    match Text.cutLast? '.' h.rename with
    | some (space, name) => (space, name)
    | none => (h.space, h.rename)

def namespaceName (t : Target) (space : String) : String :=
  if space = "" then "" else Text.join t.separator ((Text.split '.' space).map t.spaceSegment)

def aritySuffix (idx : TypeIndex) (h : TypeHead) : String :=
  if h.arity > 0 && idx.collides (.named h) then Text.decimal h.arity else ""

def declaredName (t : Target) (idx : TypeIndex) (h : TypeHead) : String :=
  match t.external? h.key with
  | some name => (Text.afterLast? t.separator name).getD name
  | none => (emittedName h).2 ++ (if t.overloadsArity then "" else aritySuffix idx h)

def referredName (t : Target) (idx : TypeIndex) (h : TypeHead) : String :=
  match t.external? h.key with
  | some name => name
  | none =>
    let space := (emittedName h).1
    let name := t.declaredName idx h
    if t.qualifies && space ≠ "" then t.namespaceName space ++ t.separator ++ name else name

def declaredSpace (h : TypeHead) : String :=
  match Text.cutLast? '.' h.rename with
  | some (space, _) => space
  | none => h.space

def fileName (t : Target) (idx : TypeIndex) (h : TypeHead) : String :=
  t.declaredName idx h ++ (if t.overloadsArity then aritySuffix idx h else "")

def simpleName (t : Target) (idx : TypeIndex) (type : Ty) : String :=
  match type.head? with
  | some h => t.declaredName idx h
  | none => type.name

/-! ## Types -/

def argumentList (args : List String) : String :=
  if args.isEmpty then "" else "<" ++ Text.join ", " args ++ ">"

def holdNamed (t : Target) (own : Ownership) (kind : DeclKind) (name : String) : String :=
  match kind with
  | .delegateDecl | .structDecl | .enumDecl => name
  | .interfaceDecl => t.hold own (if t = rust && own ≠ .value then "dyn " ++ name else name)
  | .classDecl => t.hold own name

mutual

/-- **The name of a type**, held in a given way. -/
def typeName (t : Target) (idx : TypeIndex) (own : Ownership) : Ty → String
  | .array e => t.hold own (t.arrayOf (typeName t idx (t.declared e) e))
  | .dynamic => t.dynamicType
  | .param n => n
  | .void => t.voidType
  | .primitive p => t.primitive p
  | .string => t.stringType
  | .object | .null => t.hold own t.objectType
  | .named h => t.holdNamed own h.kind (t.referredName idx h ++ argumentList h.params)
  | .closed h args _ _ => t.holdNamed own h.kind (t.referredName idx h ++ argumentList (argumentNames t idx args))

def argumentNames (t : Target) (idx : TypeIndex) : List Ty → List String
  | [] => []
  | .primitive p :: rest => t.boxedPrimitive p :: argumentNames t idx rest
  | type :: rest => typeName t idx (t.declared type) type :: argumentNames t idx rest

end

def argumentName (t : Target) (idx : TypeIndex) (type : Ty) : String :=
  match type with
  | .primitive p => t.boxedPrimitive p
  | type => t.typeName idx (t.declared type) type

def openName (t : Target) (idx : TypeIndex) (own : Ownership) (type : Ty) : String :=
  match type.head? with
  | some h => t.holdNamed own h.kind (t.referredName idx h)
  | none => t.typeName idx own type

def bareName (t : Target) (idx : TypeIndex) (own : Ownership) (type : Ty) : String :=
  match type with
  | .named h => t.holdNamed own h.kind (t.declaredName idx h ++ argumentList h.params)
  | .closed h args _ _ => t.holdNamed own h.kind (t.declaredName idx h ++ argumentList (argumentNames t idx args))
  | type => t.typeName idx own type

end Target

end Polyglot
