import Polyglot.Target.Basic

/-!
# Rendered expressions and precedence

An expression is rendered as a text together with what its surroundings have to know: how tightly its
outermost operator binds, and whether a conversion is still owed. An operand that binds looser than its
place allows is put in parentheses (`Rendered.operand`).

The levels are the same for all targets; which operator is on which level is the target's.
-/

namespace Polyglot

/-- A level of precedence; a higher one binds tighter. -/
abbrev Prec := Nat

namespace Prec

abbrev lowest : Prec := 0
abbrev assignment : Prec := 1
abbrev conditional : Prec := 2
abbrev coalesce : Prec := 3
abbrev logicalOr : Prec := 4
abbrev logicalAnd : Prec := 5
abbrev bitOr : Prec := 6
abbrev bitXor : Prec := 7
abbrev bitAnd : Prec := 8
abbrev equality : Prec := 9
abbrev relational : Prec := 10
abbrev shift : Prec := 11
abbrev additive : Prec := 12
abbrev multiplicative : Prec := 13
abbrev cast : Prec := 14
abbrev unary : Prec := 15
abbrev postfixed : Prec := 16
abbrev primary : Prec := 17

end Prec

/-- Whether a conversion is still owed to a rendered expression. -/
inductive CastMode where
  /-- Compare its type with the expected one and convert as needed. -/
  | compare
  /-- The same, of an operator expression. -/
  | compound
  /-- It has the expected type already. -/
  | settled
deriving Repr, DecidableEq

def CastMode.text : CastMode → String
  | compare => "default"
  | compound => "paren"
  | settled => "skip"

/-- A rendered expression. -/
structure Rendered where
  text : String
  mode : CastMode := .compare
  /-- The level of the outermost operator. -/
  prec : Prec
deriving Repr, DecidableEq

namespace Rendered

/-- Something that never needs parentheses. -/
def primary (text : String) : Rendered := { text, prec := Prec.primary }

/-- A call, an access or an index. -/
def postfixed (text : String) : Rendered := { text, prec := Prec.postfixed }

/-- A call, an access or an index that has the expected type already. -/
def settled (text : String) : Rendered := { text, mode := .settled, prec := Prec.postfixed }

def compound (text : String) (prec : Prec) : Rendered := { text, mode := .compound, prec }

/-- **The text as an operand**: in parentheses when it binds looser than its place allows. -/
def operand (r : Rendered) (least : Prec) : String :=
  if r.prec < least then "(" ++ r.text ++ ")" else r.text

end Rendered

/-! ## Operators -/

def familyLevels : List (String × Prec) :=
  [("??", Prec.coalesce), ("||", Prec.logicalOr), ("&&", Prec.logicalAnd), ("|", Prec.bitOr),
    ("^", Prec.bitXor), ("&", Prec.bitAnd), ("==", Prec.equality), ("!=", Prec.equality),
    ("===", Prec.equality), ("!==", Prec.equality), ("<", Prec.relational), (">", Prec.relational),
    ("<=", Prec.relational), (">=", Prec.relational), ("<<", Prec.shift), (">>", Prec.shift),
    (">>>", Prec.shift), ("+", Prec.additive), ("-", Prec.additive), ("*", Prec.multiplicative),
    ("/", Prec.multiplicative), ("%", Prec.multiplicative)]

/-- The levels of binary operators in Rust, where operators on bits bind tighter than comparisons. -/
def rustLevels : List (String × Prec) :=
  [("||", Prec.logicalOr), ("&&", Prec.logicalAnd), ("==", Prec.bitOr), ("!=", Prec.bitOr),
    ("<", Prec.bitOr), (">", Prec.bitOr), ("<=", Prec.bitOr), (">=", Prec.bitOr), ("|", Prec.bitXor),
    ("^", Prec.bitAnd), ("&", Prec.equality), ("<<", Prec.shift), (">>", Prec.shift),
    ("+", Prec.additive), ("-", Prec.additive), ("*", Prec.multiplicative), ("/", Prec.multiplicative),
    ("%", Prec.multiplicative)]

namespace Target

def levels : Target → List (String × Prec)
  | rust => rustLevels
  | _ => familyLevels

/-- The level of a binary operator; one that is not known is on the lowest. -/
def precedence (t : Target) (op : String) : Prec := (t.levels.lookup op).getD Prec.lowest

def operator (t : Target) (op : String) : String :=
  match t, op with
  | typescript, "==" => "==="
  | typescript, "!=" => "!=="
  | _, op => op

end Target

def isComparison (op : String) : Bool := op ∈ ["==", "!=", "<", ">", "<=", ">="]

namespace Rendered

/-- **A binary operator applied to two operands**, the right one of which has to bind tighter. -/
def binary (t : Target) (op : String) (left right : Rendered) : Rendered :=
  let p := t.precedence op
  let leftLeast := if t.dialect.comparesOnce && isComparison op then p + 1 else p
  compound (left.operand leftLeast ++ " " ++ t.operator op ++ " " ++ right.operand (p + 1)) p

/-- A unary operator applied to its operand. A sign is kept apart from the same sign behind it. -/
def unary (op : String) (isPostfix : Bool) (operand : Rendered) : Rendered :=
  if isPostfix then
    { text := operand.operand Prec.postfixed ++ op, mode := .compound, prec := Prec.postfixed }
  else
    let text := operand.operand Prec.unary
    let text := if (op = "-" || op = "+") && Text.hasLead op text then "(" ++ text ++ ")" else text
    compound (op ++ text) Prec.unary

end Rendered

def assignedOperator (op : String) : String := Text.dropTail "=" op

/-! ## Template text -/

def isOperatorChar (c : Char) : Bool := "+-*/%<>=!&|?:,^~".toList.contains c

def isAccessMark (c d : Char) : Bool := (c = ':' && d = ':') || (c = '-' && d = '>')

/-- Does the text have white space or an operator outside of brackets and quotes? `prev` is the character
before, `quote` the quote that is open, `depth` the number of open brackets. -/
def hasBareOperator (prev : Option Char) (quote : Option Char) (depth : Int) : List Char → Bool
  | [] => false
  | c :: rest =>
    match quote with
    | some q =>
      let closes := c = q && prev != some '\\'
      hasBareOperator (some c) (if closes then none else some q) depth rest
    | none =>
      if c = '"' || c = '\'' then hasBareOperator (some c) (some c) depth rest
      else if c ∈ ['(', '[', '\x7b'] then hasBareOperator (some c) none (depth + 1) rest
      else if c ∈ [')', ']', '\x7d'] then hasBareOperator (some c) none (depth - 1) rest
      else if depth = 0 && (Text.isBlank c || isOperatorChar c) &&
          !(rest.head?.any (isAccessMark c)) && !(prev.any (isAccessMark · c)) then true
      else hasBareOperator (some c) none depth rest

/-- **The level of a text that a template gave**: a chain of calls and accesses, or anything. -/
def templatePrecedence (text : String) : Prec :=
  if hasBareOperator none none 0 text.toList then Prec.lowest else Prec.postfixed

end Polyglot
