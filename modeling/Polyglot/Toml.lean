import Polyglot.Text.Integer

/-!
# Settings files

The format of settings files: lines `key = value` under headers `[section]`, where keys may be dotted and a
value is a text in quotes, an integer, a truth value or a list of values. A key has at most one value, and a
section at most one header. A document is kept flat: every value under its full path.

Numbers with a point, dates, texts of several lines and tables inside values are taken for malformed.
-/

namespace Polyglot.Toml

inductive Value where
  | text (s : String)
  | integer (n : Int)
  | boolean (b : Bool)
  | list (items : List Value)
deriving Repr

/-- The way to a value, from the outside in. -/
abbrev Path := List String

structure Document where
  values : List (Path × Value) := []
  /-- Sections, with whether they had a header of their own. -/
  sections : List (Path × Bool) := []
deriving Repr

namespace Document

def get? (d : Document) (p : Path) : Option Value := d.values.lookup p

def isSection (d : Document) (p : Path) : Bool := (d.sections.lookup p).isSome

/-- A section that is named on the way to another: it must not be a value. -/
def passSection? (d : Document) (p : Path) : Option Document :=
  if (d.get? p).isSome then none
  else if d.isSection p then some d
  else some { d with sections := d.sections ++ [(p, false)] }

/-- The paths that lead to a path, from the outside in; `base` comes before all of them. -/
def leading (base : Path) : Path → List Path
  | [] => []
  | [_] => []
  | k :: rest => (base ++ [k]) :: leading (base ++ [k]) rest

/-- **A header.** Sections on its way may be new; the section itself has had no header before. -/
def openSection? (d : Document) (p : Path) : Option Document := do
  let d ← (leading [] p).foldlM passSection? d
  if (d.get? p).isSome || d.sections.lookup p = some true then none
  else pure { d with sections := (p, true) :: d.sections.filter (·.1 ≠ p) }

/-- **A value under a section.** A dotted key names sections of its own, which have no header. -/
def insert? (d : Document) (base key : Path) (v : Value) : Option Document := do
  let d ← (leading base key).foldlM (fun d p =>
    if d.sections.lookup p = some true then none else d.passSection? p) d
  let p := base ++ key
  if (d.get? p).isSome || d.isSection p then none
  else pure { d with values := d.values ++ [(p, v)] }

end Document

/-! ## Characters -/

def dropBlanks (cs : List Char) : List Char := cs.dropWhile fun c => c = ' ' || c = '\t'

/-- A control character, which may not stand in a comment or a text. -/
def isControl (c : Char) : Bool := (c.toNat < 0x20 && c ≠ '\t') || c.toNat = 0x7F

def lineBreak? : List Char → Option (List Char)
  | '\n' :: rest => some rest
  | '\r' :: '\n' :: rest => some rest
  | _ => none

/-- What follows the rest of a line that has nothing to say: blanks and a comment. -/
def lineEnd? (cs : List Char) : Option (List Char) :=
  let cs := match dropBlanks cs with
    | '#' :: rest => rest.dropWhile fun c => !isControl c
    | cs => cs
  if cs.isEmpty then some [] else lineBreak? cs

/-- The rest of a text after its opening quote, with what follows the closing one. -/
def quoted? : List Char → Option (List Char × List Char)
  | [] => none
  | '"' :: rest => some ([], rest)
  | '\\' :: 'u' :: a :: b :: c :: d :: rest => do
    let code ← Text.codePoint? [a, b, c, d]
    let (cs, rest) ← quoted? rest
    pure (code :: cs, rest)
  | '\\' :: 'U' :: a :: b :: c :: d :: e :: f :: g :: h :: rest => do
    let code ← Text.codePoint? [a, b, c, d, e, f, g, h]
    let (cs, rest) ← quoted? rest
    pure (code :: cs, rest)
  | '\\' :: letter :: rest => do
    let code ← escapes.lookup letter
    let (cs, rest) ← quoted? rest
    pure (code :: cs, rest)
  | c :: rest =>
    if isControl c then none
    else do
      let (cs, rest) ← quoted? rest
      pure (c :: cs, rest)
where
  escapes : List (Char × Char) :=
    [('b', '\x08'), ('t', '\t'), ('n', '\n'), ('f', '\x0c'), ('r', '\r'), ('e', '\x1b'), ('"', '"'),
      ('\\', '\\')]

/-- The rest of a text in single quotes, in which nothing is escaped. -/
def literal? (cs : List Char) : Option (List Char × List Char) :=
  let body := cs.takeWhile fun c => c ≠ '\'' && !isControl c
  match cs.drop body.length with
  | '\'' :: rest => some (body, rest)
  | _ => none

/-! ## Keys -/

def isKeyChar (c : Char) : Bool := c.isAlphanum || c = '_' || c = '-'

def keyPart? : List Char → Option (String × List Char)
  | '"' :: rest => (quoted? rest).map fun (k, rest) => (String.ofList k, rest)
  | '\'' :: rest => (literal? rest).map fun (k, rest) => (String.ofList k, rest)
  | cs =>
    let k := cs.takeWhile isKeyChar
    if k.isEmpty then none else some (String.ofList k, cs.drop k.length)

/-- A key with its dots; `fuel` bounds the number of its parts. -/
def keyWithin? : (fuel : Nat) → List Char → Option (Path × List Char)
  | 0, _ => none
  | fuel + 1, cs => do
    let (k, rest) ← keyPart? (dropBlanks cs)
    match dropBlanks rest with
    | '.' :: rest => do
      let (more, rest) ← keyWithin? fuel rest
      pure (k :: more, rest)
    | rest => pure ([k], rest)

def key? (cs : List Char) : Option (Path × List Char) := keyWithin? (cs.length + 1) cs

/-! ## Values -/

/-- Digits in the one form they may have: separators only between digits. -/
def digitsNumber? (base : Nat) (cs : List Char) : Option Nat :=
  if Text.separatorsOk (fun c => (Text.digitValue? c).isSome) .other cs then
    Text.digits? base (cs.filter (· ≠ '_'))
  else none

/-- An integer: a decimal one has no zero in front, the others are announced in lower case and have no sign. -/
def integer? : List Char → Option Int
  | '0' :: 'x' :: rest => (digitsNumber? 16 rest).map Int.ofNat
  | '0' :: 'o' :: rest => (digitsNumber? 8 rest).map Int.ofNat
  | '0' :: 'b' :: rest => (digitsNumber? 2 rest).map Int.ofNat
  | cs =>
    let (negative, digits) := Text.cutSign cs
    match digits with
    | '0' :: _ :: _ => none
    | digits => (digitsNumber? 10 digits).map fun n => if negative then -(n : Int) else n

def word? (cs : List Char) : Option Value :=
  match String.ofList cs with
  | "true" => some (.boolean true)
  | "false" => some (.boolean false)
  | _ =>
    match integer? cs with
    | some n => if -Int.pow 2 63 ≤ n && n < Int.pow 2 63 then some (.integer n) else none
    | none => none

/-- What follows blanks, line breaks and comments, inside a list. -/
def dropSpace : (fuel : Nat) → List Char → List Char
  | 0, cs => cs
  | fuel + 1, cs =>
    match dropBlanks cs with
    | [] => []
    | c :: rest =>
      if c = '#' || c = '\n' || c = '\r' then
        match lineEnd? (c :: rest) with
        | some rest => dropSpace fuel rest
        | none => c :: rest
      else c :: rest

mutual

def value? : (fuel : Nat) → List Char → Option (Value × List Char)
  | 0, _ => none
  | fuel + 1, cs =>
    match cs with
    | '"' :: rest => (quoted? rest).map fun (s, rest) => (.text (String.ofList s), rest)
    | '\'' :: rest => (literal? rest).map fun (s, rest) => (.text (String.ofList s), rest)
    | '[' :: rest => (items? fuel (dropSpace rest.length rest)).map fun (vs, rest) => (.list vs, rest)
    | cs =>
      let word := cs.takeWhile fun c => isKeyChar c || c = '+' || c = '.' || c = ':'
      (word? word).map (·, cs.drop word.length)

/-- The rest of a list: values with commas between them, and perhaps one after the last. -/
def items? : (fuel : Nat) → List Char → Option (List Value × List Char)
  | 0, _ => none
  | _, ']' :: rest => some ([], rest)
  | fuel + 1, cs => do
    let (v, rest) ← value? fuel cs
    match dropSpace rest.length rest with
    | ',' :: rest => do
      let (vs, rest) ← items? fuel (dropSpace rest.length rest)
      pure (v :: vs, rest)
    | ']' :: rest => pure ([v], rest)
    | _ => none

end

/-! ## Documents -/

/-- The lines of a document, of which each starts under the section that is open. -/
def lines? : (fuel : Nat) → (base : Path) → Document → List Char → Option Document
  | 0, _, _, _ => none
  | fuel + 1, base, d, cs =>
    match dropBlanks cs with
    | [] => some d
    | '[' :: rest => do
      let (p, rest) ← key? rest
      match rest with
      | ']' :: rest => do
        let d ← d.openSection? p
        let rest ← lineEnd? rest
        lines? fuel p d rest
      | _ => none
    | cs =>
      match lineEnd? cs with
      | some rest => lines? fuel base d rest
      | none => do
        let (key, rest) ← key? cs
        match rest with
        | '=' :: rest => do
          let (v, rest) ← value? (rest.length + 1) (dropBlanks rest)
          let d ← d.insert? base key v
          let rest ← lineEnd? rest
          lines? fuel base d rest
        | _ => none

/-- **The document that a text is**, unless it is malformed. -/
def read? (text : String) : Option Document :=
  let cs := text.toList
  lines? (cs.length + 1) [] {} cs

end Polyglot.Toml
