import Polyglot.Fault

/-!
# Targets

The languages that a compilation is emitted in, and the few words and habits in which they differ and that
need no code: how the current object and null are called, how members are reached, where braces stand.
-/

namespace Polyglot

inductive Target where
  | cpp
  | csharp
  | java
  | rust
  | typescript
deriving Repr, DecidableEq

namespace Target

def name : Target → String
  | cpp => "cpp"
  | csharp => "csharp"
  | java => "java"
  | rust => "rust"
  | typescript => "typescript"

def all : List Target := [cpp, csharp, java, rust, typescript]

def ofName? (name : String) : Option Target := all.find? (·.name = name)

def ofName (name : String) : Except Fault Target :=
  match ofName? name with
  | some t => .ok t
  | none =>
    .error (.hint ("available backends: " ++ Text.join ", " (all.map (·.name)))
      (.plain ("unknown backend " ++ Text.quoted name)))

end Target

structure Dialect where
  this : String
  base : String
  null : String
  /-- What joins a receiver and a member. -/
  dot : String
  /-- What joins a type and a member that belongs to it. -/
  scope : String
  /-- What follows a number of single precision. -/
  floatSuffix : String := ""
  /-- What follows an integer of 64 bits. -/
  longSuffix : String := ""
  indent : String := "    "
  /-- There is an operator for the first of two values that is not null. -/
  coalesces : Bool := false
  comparesOnce : Bool := false
  hasEvents : Bool := false
  hasIndexers : Bool := false
  braceOnOwnLine : Bool := false
  bareConditions : Bool := false
  /-- The statement that throws the current exception again; none: the variable is thrown again. -/
  rethrow : Option String := none

namespace Target

def dialect : Target → Dialect
  | cpp => {
      this := "this", base := "this", null := "nullptr", dot := "->", scope := "::"
      floatSuffix := "f", longSuffix := "LL", rethrow := some "throw;" }
  | csharp => {
      this := "this", base := "base", null := "null", dot := ".", scope := "."
      floatSuffix := "f", longSuffix := "L", coalesces := true, hasEvents := true, hasIndexers := true
      braceOnOwnLine := true, rethrow := some "throw;" }
  | java => {
      this := "this", base := "super", null := "null", dot := ".", scope := "."
      floatSuffix := "f", longSuffix := "L" }
  | rust => {
      this := "self", base := "self", null := "None", dot := ".", scope := "::"
      floatSuffix := "_f32", comparesOnce := true, bareConditions := true }
  | typescript => {
      this := "this", base := "super", null := "null", dot := ".", scope := "."
      indent := "  ", coalesces := true }

end Target

end Polyglot
