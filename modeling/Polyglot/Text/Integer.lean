import Polyglot.Text.Basic

/-!
# Integers in text

Integers in base two, eight, ten and sixteen. The base is announced by the first characters, and digits may be
grouped by a separator.
-/

namespace Polyglot.Text

def digitValue? (c : Char) : Option Nat :=
  if '0' ≤ c && c ≤ '9' then some (c.toNat - '0'.toNat)
  else if 'a' ≤ c && c ≤ 'f' then some (c.toNat - 'a'.toNat + 10)
  else if 'A' ≤ c && c ≤ 'F' then some (c.toNat - 'A'.toNat + 10)
  else none

/-- The number that digits of a base spell, most significant first. -/
def foldDigits? (base : Nat) : List Char → Nat → Option Nat
  | [], n => some n
  | c :: cs, n =>
    match digitValue? c with
    | some d => if d < base then foldDigits? base cs (n * base + d) else none
    | none => none

def digits? (base : Nat) : List Char → Option Nat
  | [] => none
  | c :: cs => foldDigits? base (c :: cs) 0

/-- The base that the first characters announce, with the digits that follow them. The last component
says whether there was an announcement. -/
def announcedBase : List Char → Nat × List Char × Bool
  | '0' :: x :: rest =>
    if x = 'x' || x = 'X' then (16, rest, true)
    else if x = 'o' || x = 'O' then (8, rest, true)
    else if x = 'b' || x = 'B' then (2, rest, true)
    else (8, x :: rest, true)
  | cs => (10, cs, false)

/-- What stood before a position: a digit, a separator, or anything else. -/
inductive Seen where
  | digit
  | separator
  | other
deriving Repr, DecidableEq

def separatorsOk (isDigit : Char → Bool) : Seen → List Char → Bool
  | seen, [] => seen ≠ .separator
  | seen, c :: rest =>
    if isDigit c then separatorsOk isDigit .digit rest
    else if c = '_' then seen = .digit && separatorsOk isDigit .separator rest
    else seen ≠ .separator && separatorsOk isDigit .other rest

/-- The magnitude of an unsigned integer whose base is announced by its first characters. Separators
are accepted where `separatorsOk` says; the announcement counts as a digit. -/
def magnitude? (cs : List Char) : Option Nat :=
  let (base, digits, announced) := announcedBase cs
  let isDigit := fun c => if base = 16 then (digitValue? c).isSome else c.isDigit
  if separatorsOk isDigit (if announced then .digit else .other) digits then
    digits? base (digits.filter (· ≠ '_'))
  else none

/-- A sign, if any, with what follows it: true stands for a minus. -/
def cutSign : List Char → Bool × List Char
  | '-' :: rest => (true, rest)
  | '+' :: rest => (false, rest)
  | cs => (false, cs)

inductive IntegerFault where
  | malformed
  | outOfRange
deriving Repr, DecidableEq

/-- **An integer in 64 bits**, signed, in the base that it announces. -/
def readSigned64 (cs : List Char) : Except IntegerFault Int :=
  let (negative, digits) := cutSign cs
  match magnitude? digits with
  | none => .error .malformed
  | some n =>
    if negative then if n ≤ Nat.pow 2 63 then .ok (-(n : Int)) else .error .outOfRange
    else if n < Nat.pow 2 63 then .ok n else .error .outOfRange

/-- The same, without a reason. -/
def signed64? (cs : List Char) : Option Int := (readSigned64 cs).toOption

/-- An integer in 64 bits, unsigned and without a sign, in the base that it announces. -/
def unsigned64? (cs : List Char) : Option Nat :=
  match magnitude? cs with
  | some n => if n < Nat.pow 2 64 then some n else none
  | none => none

/-- An integer in 64 bits whose digits, after an optional sign, are of the given base. -/
def signedIn64? (base : Nat) (cs : List Char) : Option Int :=
  let (negative, digits) := cutSign cs
  match digits? base digits with
  | none => none
  | some n =>
    if negative then if n ≤ Nat.pow 2 63 then some (-(n : Int)) else none
    else if n < Nat.pow 2 63 then some n else none

def codePoint? (cs : List Char) : Option Char :=
  match digits? 16 cs with
  | some n => if h : n.isValidChar then some (Char.ofNatAux n h) else none
  | none => none

end Polyglot.Text
