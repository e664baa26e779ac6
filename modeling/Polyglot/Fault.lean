import Polyglot.Position
import Polyglot.Text.Quoted

/-!
# Faults

Whatever stops the library is a `Fault`: a cause, and around it the contexts, details and hints that were added on the way out.
The text of a fault is its contexts from the outside in, then its cause. Four classes of faults concern the code to be emitted;
`Fault.isOf` finds a class through any number of layers.
-/

namespace Polyglot

inductive FaultClass where
  | unsupportedConstruct
  | templateBinding
  /-- A name without a declaration; the only class that does not stop a unit. -/
  | unresolvedSymbol
  /-- A call whose arguments do not fit its parameters. -/
  | invocationBinding
deriving Repr, DecidableEq

def FaultClass.text : FaultClass → String
  | unsupportedConstruct => "unsupported construct"
  | templateBinding => "template binding"
  | unresolvedSymbol => "unresolved symbol"
  | invocationBinding => "invocation binding"

inductive Problem where
  | unknownTypeKind (kind name : String)
  | typeWithoutName
  | typeDeclaredTwice (name : String)
  | unknownMemberKind (kind type : String)
  | memberWithoutName (kind type : String)
  | memberWithoutType (name type : String)
  | unknownPassing (whose passing : String)
  | unknownCallerInfo (info : String)
  | variadicNotArray (name : String)
  | unknownType (name : String)
  | typeNameExpected (text : String)
  | typeListExpected (text : String)
  /-- The rest is given as it is quoted: it may start inside a character. -/
  | typeTrailing (quotedRest text : String)
  | unknownChain (kind : String)
  | notExpression (kind : String)
  | unsupportedLiteral (text : String)
  | notOneCharacter (text : String)
  | untypedLocal (name : String)
  | callWithoutTarget
  | strayInitializer
  | anonymousMember
deriving Repr, DecidableEq

def Problem.text : Problem → String
  | unknownTypeKind kind name => "unknown type kind " ++ Text.quoted kind ++ " of " ++ name
  | typeWithoutName => "type without name"
  | typeDeclaredTwice name => "type " ++ name ++ " declared twice"
  | unknownMemberKind kind type => "unknown member kind " ++ Text.quoted kind ++ " in " ++ type
  | memberWithoutName kind type => kind ++ " member without name in " ++ type
  | memberWithoutType name type => "member " ++ name ++ " of " ++ type ++ " has no type"
  | unknownPassing whose passing => "unknown " ++ whose ++ " passing " ++ Text.quoted passing
  | unknownCallerInfo info => "unknown caller info " ++ Text.quoted info
  | variadicNotArray name => "params parameter " ++ name ++ " must be an array"
  | unknownType name => "unknown type " ++ name
  | typeNameExpected text => "expected a type name in " ++ Text.quoted text
  | typeListExpected text => "expected , or > in " ++ Text.quoted text
  | typeTrailing quotedRest text => "unexpected " ++ quotedRest ++ " in type " ++ Text.quoted text
  | unknownChain kind => "unknown constructor chain " ++ Text.quoted kind
  | notExpression kind => Text.quoted kind ++ " is not an expression"
  | unsupportedLiteral text => "unsupported literal " ++ Text.quoted text
  | notOneCharacter text => "char literal " ++ Text.quoted text ++ " must be a single character"
  | untypedLocal name => "cannot infer the type of local " ++ name
  | callWithoutTarget => "invocation without target"
  | strayInitializer => "initializer element outside of a creation"
  | anonymousMember => "anonymous object members must be assignments"

inductive Fault where
  /-- A class of faults, as the cause. -/
  | ofClass (c : FaultClass)
  /-- A broken promise of the library to itself. -/
  | assertion (text : String)
  | plain (text : String)
  | problem (place : Option Position) (p : Problem)
  /-- A well-formed document with a value of the wrong shape. -/
  | shape
  | malformed
  /-- Something is missing that was taken for granted. A text is given where the missing thing is
  announced. -/
  | crash (text : Option String)
  | context (text : String) (cause : Fault)
  | detail (text : String) (cause : Fault)
  | hint (text : String) (cause : Fault)
  | both (first second : Fault)
deriving Repr, DecidableEq

namespace Fault

def text : Fault → String
  | ofClass c => c.text
  | assertion t | plain t => t
  | problem none p => p.text
  | problem (some place) p => place.text ++ ": " ++ p.text
  | shape | malformed => ""
  | crash t => t.getD "runtime error"
  | context "" cause => cause.text
  | context t cause => t ++ ": " ++ cause.text
  | detail _ cause | hint _ cause => cause.text
  | both first second => first.text ++ "; " ++ second.text

/-- Is the cause of the fault of a class? Of two faults side by side, one of that class is enough. -/
def isOf (c : FaultClass) : Fault → Bool
  | ofClass d => d = c
  | context _ cause | detail _ cause | hint _ cause => cause.isOf c
  | both first second => first.isOf c || second.isOf c
  | _ => false

/-- Only a missing declaration lets a unit go on. -/
def isFatal (f : Fault) : Bool := !f.isOf .unresolvedSymbol

/-- The details of a fault, innermost first. Two faults side by side have none in common. -/
def details : Fault → List String
  | detail t cause => cause.details ++ [t]
  | context _ cause | hint _ cause => cause.details
  | _ => []

/-- The hints of a fault, innermost first, each once. Two faults side by side have none in common. -/
def hints : Fault → List String
  | hint t cause => if cause.hints.contains t then cause.hints else cause.hints ++ [t]
  | context _ cause | detail _ cause => cause.hints
  | _ => []

def all? : List Fault → Option Fault
  | [] => none
  | f :: rest =>
    match all? rest with
    | none => some f
    | some g => some (both f g)

def located (f : Fault) (place : Position) : Fault := detail place.text f

def unsupported (target : String) (place : Position) (what : String) : Fault :=
  located (context (place.text ++ ": " ++ what ++ " in " ++ target) (ofClass .unsupportedConstruct)) place

/-- A template variable without a value; `token` is its token without braces. -/
def unboundVariable (symbol token : String) : Fault :=
  context ("template for " ++ symbol ++ ": no value bound for \x7b" ++ token ++ "\x7d")
    (ofClass .templateBinding)

/-- A parameter without an argument, or an argument without a parameter. -/
def unboundParameter (place : Position) (method parameter : String) : Fault :=
  located (context (place.text ++ ": call to " ++ method ++ ": no argument or default for parameter " ++
    parameter) (ofClass .invocationBinding)) place

/-- What a caller can tell apart. -/
inductive Kind where
  | unsupported
  | template
  | binding
  | assertion
  | shape
  | malformed
  | crash
  | other
deriving Repr, DecidableEq

def cause : Fault → Fault
  | context _ c | detail _ c | hint _ c => c.cause
  | f => f

/-- The first kind that applies. A broken promise counts as one only when nothing is wrapped around
it. -/
def kind (f : Fault) : Kind :=
  if f.isOf .unsupportedConstruct then .unsupported
  else if f.isOf .templateBinding then .template
  else if f.isOf .invocationBinding then .binding
  else
    match f, f.cause with
    | assertion _, _ => .assertion
    | _, shape => .shape
    | _, malformed => .malformed
    | _, crash _ => .crash
    | _, _ => .other

end Fault

/-! ## Diagnostics -/

inductive DiagnosticKind where
  | internal
  | ofClass (c : FaultClass)
deriving Repr, DecidableEq

def DiagnosticKind.text : DiagnosticKind → String
  | internal => "internal"
  | ofClass .unsupportedConstruct => "unsupported"
  | ofClass .templateBinding => "template"
  | ofClass .unresolvedSymbol => "unresolved"
  | ofClass .invocationBinding => "binding"

structure Diagnostic where
  kind : DiagnosticKind
  place : Position
  message : String
deriving Repr, DecidableEq

namespace Diagnostic

def text (d : Diagnostic) : String := d.place.text ++ ": " ++ d.kind.text ++ ": " ++ d.message

def ofFault (f : Fault) (place : Position) : Diagnostic :=
  let kind : DiagnosticKind :=
    if f.isOf .unsupportedConstruct then .ofClass .unsupportedConstruct
    else if f.isOf .templateBinding then .ofClass .templateBinding
    else if f.isOf .invocationBinding then .ofClass .invocationBinding
    else if f.isOf .unresolvedSymbol then .ofClass .unresolvedSymbol
    else .internal
  { kind, place, message := f.text }

def unresolved (place : Position) (what name : String) : Diagnostic where
  kind := .ofClass .unresolvedSymbol
  place
  message := "no symbol for " ++ what ++ " " ++ Text.quoted name ++ ", emitted as written"

end Diagnostic

end Polyglot
