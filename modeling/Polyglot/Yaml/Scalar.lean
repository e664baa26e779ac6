import Polyglot.Text.Integer

/-!
# What a plain scalar means

A plain scalar is null, a truth value, a number, a date or a text by its spelling alone. This module
holds that decision (`Tag.ofPlain`) and the decimal floating-point numbers that fit a double, on which it rests.
-/

namespace Polyglot.Yaml

open Text

/-- The kind of value that a scalar stands for. `other` is a tag given in the document that is none
of the usual ones. -/
inductive Tag where
  | null
  | bool
  | int
  | float
  | string
  | timestamp
  | merge
  | other (name : String)
deriving Repr, DecidableEq

/-- The tag that a document spells in its short form. -/
def Tag.ofName : String → Tag
  | "!!null" => .null
  | "!!bool" => .bool
  | "!!int" => .int
  | "!!float" => .float
  | "!!str" => .string
  | "!!timestamp" => .timestamp
  | "!!merge" => .merge
  | name => .other name

/-! ## Decimal floating-point numbers -/

/-- A decimal number: sign, digits without the point, and the power of ten they are multiplied by. -/
structure Decimal where
  negative : Bool
  digits : Nat
  exponent : Int
deriving Repr, DecidableEq

def Decimal.fitsDouble (d : Decimal) : Bool :=
  let bound := Nat.pow 2 1024 - Nat.pow 2 970
  if d.digits = 0 then true
  else
    match d.exponent with
    | .ofNat e => if e > 400 then false else d.digits * Nat.pow 10 e < bound
    | .negSucc e => d.digits < bound * Nat.pow 10 (min (e + 1) (d.digits.log2 + 1))

/-- The whole part of a decimal number, toward zero. -/
def Decimal.truncate (d : Decimal) : Int :=
  let whole :=
    match d.exponent with
    | .ofNat e => if d.digits = 0 then 0 else d.digits * Nat.pow 10 e
    | .negSucc e => d.digits / Nat.pow 10 (min (e + 1) (d.digits.log2 + 1))
  if d.negative then -(whole : Int) else whole

def takeDigits (cs : List Char) : List Char × List Char :=
  (cs.takeWhile Char.isDigit, cs.dropWhile Char.isDigit)

/-- The exponent at the end of a number: nothing, or `e`, a sign and digits. -/
def exponent? : List Char → Option Int
  | [] => some 0
  | e :: rest =>
    if e = 'e' || e = 'E' then
      let (negative, cs) := cutSign rest
      (digits? 10 cs).map (fun n => if negative then -(n : Int) else n)
    else none

/-- A decimal number: an optional sign, digits with at most one point (a point at the front needs
digits after it), and an optional exponent. -/
def Decimal.ofChars? (cs : List Char) : Option Decimal :=
  let (negative, unsigned) := cutSign cs
  let (whole, rest) := takeDigits unsigned
  let (fraction, tail) :=
    match rest with
    | '.' :: more => takeDigits more
    | _ => ([], rest)
  if whole.isEmpty && fraction.isEmpty then none
  else
    match exponent? tail, digits? 10 (whole ++ fraction) with
    | some e, some n => some ⟨negative, n, e - fraction.length⟩
    | _, _ => none

/-! ## Dates -/

def daysIn (year month : Nat) : Nat :=
  if month = 2 then
    if (year % 4 = 0 && year % 100 ≠ 0) || year % 400 = 0 then 29 else 28
  else if month = 4 || month = 6 || month = 9 || month = 11 then 30
  else 31

def shortNumber? (cs : List Char) : Option (Nat × List Char) :=
  match takeDigits cs with
  | ([a], rest) => (digits? 10 [a]).map (·, rest)
  | ([a, b], rest) => (digits? 10 [a, b]).map (·, rest)
  | _ => none

/-- The time zone at the end of a time: `Z`, or a sign, hours and minutes. -/
def isZone : List Char → Bool
  | ['Z'] => true
  | s :: a :: b :: ':' :: [c, d] =>
    (s = '+' || s = '-') &&
      match digits? 10 [a, b], digits? 10 [c, d] with
      | some h, some m => h ≤ 24 && m ≤ 60
      | _, _ => false
  | _ => false

/-- Hours, minutes, seconds and an optional fraction, with what follows them. -/
def clock? (cs : List Char) : Option (List Char) :=
  match shortNumber? cs with
  | some (h, ':' :: rest) =>
    match shortNumber? rest with
    | some (m, ':' :: rest) =>
      match shortNumber? rest with
      | some (s, rest) =>
        if h < 24 && m < 60 && s < 60 then
          match rest with
          | '.' :: more | ',' :: more =>
            match takeDigits more with
            | ([], _) => none
            | (_, tail) => some tail
          | _ => some rest
        else none
      | none => none
    | _ => none
  | _ => none

/-- A date `year-month-day` with a four-digit year, alone or followed by a time of day. A time behind blanks has
no zone. -/
def isTimestamp (cs : List Char) : Bool :=
  match takeDigits cs with
  | ([a, b, c, d], '-' :: rest) =>
    match digits? 10 [a, b, c, d], shortNumber? rest with
    | some year, some (month, '-' :: rest) =>
      match shortNumber? rest with
      | some (day, tail) =>
        (1 ≤ month && month ≤ 12 && 1 ≤ day && day ≤ daysIn year month) &&
          match tail with
          | [] => true
          | 'T' :: time | 't' :: time => (clock? time).any isZone
          | ' ' :: time => (clock? (time.dropWhile (· = ' '))).any List.isEmpty
          | _ => false
      | none => false
    | _, _ => false
  | _ => false

/-! ## The decision -/

def wordTag? (s : String) : Option Tag :=
  if s ∈ ["", "~", "null", "Null", "NULL"] then some .null
  else if s ∈ ["true", "True", "TRUE", "false", "False", "FALSE"] then some .bool
  else if s ∈ [".nan", ".NaN", ".NAN", ".inf", ".Inf", ".INF", "+.inf", "+.Inf", "+.INF",
    "-.inf", "-.Inf", "-.INF"] then some .float
  else none

def isDouble (cs : List Char) : Bool := (Decimal.ofChars? cs).any Decimal.fitsDouble

/-- Binary and octal integers whose sign may stand behind the base. -/
def isLateSigned : List Char → Bool
  | '0' :: 'b' :: rest => (signedIn64? 2 rest).isSome
  | '-' :: '0' :: 'b' :: rest => (signedIn64? 2 ('-' :: rest)).isSome
  | '0' :: 'o' :: rest => (signedIn64? 8 rest).isSome
  | '-' :: '0' :: 'o' :: rest => (signedIn64? 8 ('-' :: rest)).isSome
  | _ => false

def numberTag (cs : List Char) : Tag :=
  let plain := cs.filter (· ≠ '_')
  if isTimestamp cs then .timestamp
  else if (signed64? plain).isSome || (unsigned64? plain).isSome then .int
  else if isDouble plain then .float
  else if isLateSigned plain then .int
  else .string

/-- A number that starts with its point: separators stand between digits only. -/
def pointTag (cs : List Char) : Tag :=
  if separatorsOk Char.isDigit .other cs && isDouble (cs.filter (· ≠ '_')) then .float else .string

/-- **What a plain scalar stands for**, by its spelling. -/
def Tag.ofPlain (s : String) : Tag :=
  match wordTag? s with
  | some tag => tag
  | none =>
    match s.toList with
    | [] => .null
    | c :: rest =>
      if c = '.' then pointTag (c :: rest)
      else if c = '+' || c = '-' || c.isDigit then numberTag (c :: rest)
      else .string

/-- The whole number that a scalar resolved as a number spells, toward zero. Numbers that are not
finite have none. -/
def wholeNumber? (s : String) : Option Int :=
  let plain := s.toList.filter (· ≠ '_')
  match signed64? plain with
  | some n => some n
  | none =>
    match Decimal.ofChars? plain with
    | some d =>
      if d.fitsDouble then
        let n := d.truncate
        if -Int.pow 2 63 ≤ n && n < Int.pow 2 63 then some n else none
      else none
    | none =>
      match plain with
      | '0' :: 'b' :: rest => signedIn64? 2 rest
      | '-' :: '0' :: 'b' :: rest => signedIn64? 2 ('-' :: rest)
      | '0' :: 'o' :: rest => signedIn64? 8 rest
      | '-' :: '0' :: 'o' :: rest => signedIn64? 8 ('-' :: rest)
      | _ => none

end Polyglot.Yaml
