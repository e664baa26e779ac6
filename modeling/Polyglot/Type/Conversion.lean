import Polyglot.Type.Hierarchy

/-!
# Conversions between types

Which conversion a value needs where another type is expected (`CastKind.decide`), how well an argument
fits a parameter (`fit?`), and the type of an operator applied to two numbers (`promote`). The decisions
are the same for every target; only the spelling of a conversion differs.
-/

namespace Polyglot

/-- The conversions that are made without being asked for. -/
inductive CastKind where
  | none
  /-- A value held as an object. -/
  | box
  /-- A number in a wider type. -/
  | numeric
  /-- A reference seen through a supertype. -/
  | upcast
deriving Repr, DecidableEq

def CastKind.text : CastKind → String
  | none => "none"
  | box => "box"
  | numeric => "numeric"
  | upcast => "upcast"

/-- Does a conversion between number types keep every value, up to rounding to a floating type? -/
def isWidening (source target : Primitive) : Bool :=
  if source = target then false
  else if source.isIntegral && target.isFloating then true
  else if source = .float32 && target = .float64 then true
  else if source.isIntegral && target.isIntegral then
    source.bits < target.bits && (!target.isUnsigned || source.isUnsigned)
  else false

/-- **The conversion** that a value of type `static` needs where `converted` is expected. -/
def CastKind.decide (static converted : Option Ty) : CastKind :=
  match static, converted with
  | some s, some c =>
    if s.same c then .none
    else if c.isUntyped && (s.isPrimitive || s.isString) then .box
    else
      match s.primitive?, c.primitive? with
      | some p, some q => if p.isNumeric && q.isNumeric && isWidening p q then .numeric else .none
      | _, _ =>
        if c.isEnumerable && s.isReferenceType then .none
        else if s.isReferenceType && !s.isArray && !s.isUntyped && c.isReferenceType then .upcast
        else .none
  | _, _ => .none

/-- How well an argument of one type fits a parameter of another, higher being better; nothing when it
does not. What has no type fits anything, but not well. -/
def fit? (H : Hierarchy) (source target : Option Ty) : Option Nat :=
  match source, target with
  | some s, some t =>
    if t.isParam then some 0
    else if s.same t then some 3
    else if H.assignable s t then some 2
    else if CastKind.decide (some s) (some t) = .numeric then some 1
    else if s.isNull && t.isReferenceType then some 1
    else none
  | _, _ => some 0

/-- **The type of an operation on two numbers.** With one number and something else, it is the
number's type; with none, the second type. -/
def promote (a b : Option Ty) : Option Ty :=
  match a.bind Ty.primitive?, b.bind Ty.primitive? with
  | some p, some q =>
    if p.isNumeric && q.isNumeric then
      some (.primitive (
        if p = .float64 || q = .float64 then .float64
        else if p = .float32 || q = .float32 then .float32
        else if p = .uint64 || q = .uint64 then .uint64
        else if p = .int64 || q = .int64 then .int64
        else if p = .uint32 && q = .uint32 then .uint32
        else if p = .uint32 || q = .uint32 then .int64
        else .int32))
    else if p.isNumeric then a else b
  | some p, none => if p.isNumeric then a else b
  | none, _ => b

end Polyglot
