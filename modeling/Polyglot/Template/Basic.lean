import Polyglot.Fault

/-!
# Code templates

A template is the text that stands for the use of a library member in one target. Its variables are written `{name}` or
`{name:modifier}`; every other character, braces included, stands for itself. Values are never scanned again, so a value may
look like a variable.
-/

namespace Polyglot

structure Variable where
  name : String
  /-- How its value is wanted; empty: as usual. -/
  modifier : String := ""
deriving Repr, DecidableEq

namespace Variable

/-- What is written between the braces. -/
def token (v : Variable) : String := if v.modifier = "" then v.name else v.name ++ ":" ++ v.modifier

/-- The modifier that asks for a value as it is, without collecting it into an array. -/
def raw : String := "raw"

end Variable

/-- A piece of a template. -/
inductive Segment where
  | char (c : Char)
  | variable (v : Variable)
deriving Repr, DecidableEq

structure Template where
  /-- The member, as it is named in messages. -/
  symbol : String
  raw : String
deriving Repr, DecidableEq

namespace Template

/-! ## Reading -/

def isNameStart (c : Char) : Bool := c.isAlpha || c = '_'

def isNamePart (c : Char) : Bool := c.isAlphanum || c = '_'

/-- The name at the front of a list of characters, and what is behind it. -/
def takeName? : List Char → Option (String × List Char)
  | [] => none
  | c :: cs =>
    if isNameStart c then
      some (String.ofList (c :: cs.takeWhile isNamePart), cs.dropWhile isNamePart)
    else none

/-- What follows an opening brace, when it and a closing brace make a variable. -/
def takeVariable? (cs : List Char) : Option (Variable × List Char) :=
  match takeName? cs with
  | some (name, '\x7d' :: rest) => some ({ name }, rest)
  | some (name, ':' :: rest) =>
    match takeName? rest with
    | some (modifier, '\x7d' :: rest) => some ({ name, modifier }, rest)
    | _ => none
  | _ => none

def scanWithin : Nat → List Char → List Segment
  | 0, _ | _, [] => []
  | fuel + 1, c :: cs =>
    if c = '\x7b' then
      match takeVariable? cs with
      | some (v, rest) => .variable v :: scanWithin fuel rest
      | none => .char c :: scanWithin fuel cs
    else .char c :: scanWithin fuel cs

/-- The pieces of a text. Every step takes a character. -/
def scan (cs : List Char) : List Segment := scanWithin cs.length cs

def segments (t : Template) : List Segment := scan t.raw.toList

/-- **A text as a template**; its braces have to be as many opening as closing ones. -/
def parse (symbol raw : String) : Except Fault Template :=
  let cs := raw.toList
  if cs.count '\x7b' = cs.count '\x7d' then .ok { symbol, raw }
  else .error (.plain ("template for " ++ symbol ++ ": unbalanced braces in " ++ Text.quoted raw))

/-! ## Variables -/

def varsOf : (seen : List Variable) → List Segment → List Variable
  | _, [] => []
  | seen, .char _ :: rest => varsOf seen rest
  | seen, .variable v :: rest =>
    if seen.contains v then varsOf seen rest else v :: varsOf (v :: seen) rest

/-- **The variables of a template**, each once, in order of first appearance. -/
def vars (t : Template) : List Variable := varsOf [] t.segments

def uses (t : Template) (name : String) : Bool := t.vars.any (·.name = name)

/-! ## Rendering -/

/-- The values of some variables, by what is written between the braces; the first one listed counts. -/
abbrev Values := List (String × String)

def segmentText (values : Values) : Segment → String
  | .char c => String.singleton c
  | .variable v => (values.lookup v.token).getD ""

/-- **The template with a value in the place of every variable.** The first variable without a value is
a fault. -/
def render (t : Template) (values : Values) : Except Fault String :=
  match t.vars.find? (fun v => (values.lookup v.token).isNone) with
  | some v => .error (Fault.unboundVariable t.symbol v.token)
  | none => .ok (String.join (t.segments.map (segmentText values)))

end Template

end Polyglot
