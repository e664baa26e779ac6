import Polyglot.Text.Basic

/-!
# Fields of a line

A line of fields with commas between them. A field in double quotes may hold commas, and a quote in it is
written twice; elsewhere a quote is a fault. Columns of faults count the bytes of the line, from one.
-/

namespace Polyglot.Fields

inductive Fault where
  | missing
  | bareQuote (column : Nat)
  /-- A quote that ends no field, or none that does. -/
  | brokenQuote (column : Nat)
deriving Repr, DecidableEq

def Fault.text : Fault → String
  | missing => "EOF"
  | bareQuote column => place column ++ "bare \" in non-quoted field"
  | brokenQuote column => place column ++ "extraneous or missing \" in quoted-field"
where
  place (column : Nat) : String := "parse error on line 1, column " ++ Text.decimal column ++ ": "

def width (cs : List Char) : Nat := cs.foldl (fun n c => n + c.utf8Size) 0

/-- The rest of a field in quotes, what follows it, and the column of that. -/
def quoted (column : Nat) : List Char → Except Fault (List Char × List Char × Nat)
  | [] => .error (.brokenQuote column)
  | '"' :: '"' :: rest => do
    let (cs, rest, column) ← quoted (column + 2) rest
    pure ('"' :: cs, rest, column)
  | '"' :: [] => .ok ([], [], column + 1)
  | '"' :: c :: rest => if c = ',' then .ok ([], c :: rest, column + 1) else .error (.brokenQuote column)
  | c :: rest => do
    let (cs, rest, column) ← quoted (column + c.utf8Size) rest
    pure (c :: cs, rest, column)

/-- A field without quotes, what follows it, and the column of that. -/
def plain (column : Nat) (cs : List Char) : Except Fault (List Char × List Char × Nat) :=
  let field := cs.takeWhile (· ≠ ',')
  let lead := field.takeWhile (· ≠ '"')
  if lead.length < field.length then .error (.bareQuote (column + width lead))
  else .ok (field, cs.drop field.length, column + width field)

/-- The fields of a line; `fuel` bounds their number. -/
def within : (fuel column : Nat) → List Char → Except Fault (List String)
  | 0, _, _ => .ok []
  | fuel + 1, column, cs => do
    let (field, rest, column) ← match cs with
      | '"' :: rest => quoted (column + 1) rest
      | cs => plain column cs
    match rest with
    | [] => pure [String.ofList field]
    | _ :: rest => do
      let fields ← within fuel (column + 1) rest
      pure (String.ofList field :: fields)

/-- **The fields of the first line of a text** that is not empty; an empty text has none. -/
def read (text : String) : Except Fault (List String) :=
  if text = "" then .ok []
  else
    match (Text.split '\n' text).find? (· ≠ "") with
    | none => .error .missing
    | some line => within (line.length + 1) 1 line.toList

end Polyglot.Fields
