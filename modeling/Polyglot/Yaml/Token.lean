import Polyglot.Yaml.Scalar

/-!
# Tokens of a document

A document is cut into tokens from left to right. Block structure is recognised by indentation: a column deeper than the
current one opens a collection, a shallower one closes it. A mapping key is recognised late, by the `:` behind it, so the
scanner remembers where the last possible key stood and inserts the tokens that open it there.

`Token.scan` never fails: where the text cannot be cut further, the list ends in an `invalid` token.
-/

namespace Polyglot.Yaml

inductive Token.Kind where
  | documentStart
  | documentEnd
  | blockSequence
  | blockMapping
  | blockEnd
  | openSequence
  | closeSequence
  | openMapping
  | closeMapping
  | blockEntry
  | flowEntry
  | key
  | value
  | tag (name : String)
  | scalar (text : String) (isPlain : Bool)
  | streamEnd
  | invalid
deriving Repr, DecidableEq

/-- A token and where it starts, counted from zero. -/
structure Token where
  kind : Token.Kind
  line : Nat
  column : Nat
deriving Repr, DecidableEq

/-! ## Characters -/

def isSpace (c : Char) : Bool := c = ' ' || c = '\t'

def isBreak (c : Char) : Bool :=
  c = '\n' || c = '\r' || c.toNat = 0x85 || c.toNat = 0x2028 || c.toNat = 0x2029

/-- The rest of the text starts with a space, a line end, or not at all. -/
def atBlank : List Char → Bool
  | [] => true
  | c :: _ => isSpace c || isBreak c

def isReadable (c : Char) : Bool :=
  let n := c.toNat
  n = 9 || n = 10 || n = 13 || (0x20 ≤ n && n ≤ 0x7E) || n = 0x85 || (0xA0 ≤ n && n ≤ 0xD7FF) ||
    (0xE000 ≤ n && n ≤ 0xFFFD) || 0x10000 ≤ n

def atDocumentMark : List Char → Bool
  | '-' :: '-' :: '-' :: rest => atBlank rest
  | '.' :: '.' :: '.' :: rest => atBlank rest
  | _ => false

/-! ## Positions -/

/-- The text still to be cut and the position of its first character. -/
structure Cursor where
  rest : List Char
  line : Nat := 0
  column : Nat := 0
  index : Nat := 0
deriving Repr

def Cursor.skip (c : Cursor) (n : Nat := 1) : Cursor :=
  { c with rest := c.rest.drop n, column := c.column + n, index := c.index + n }

/-- Past a line end; a return and a newline are one. -/
def Cursor.skipLine (c : Cursor) : Cursor :=
  match c.rest with
  | '\r' :: '\n' :: rest => { rest, line := c.line + 1, column := 0, index := c.index + 2 }
  | _ :: rest => { rest, line := c.line + 1, column := 0, index := c.index + 1 }
  | [] => c

/-- A line end as it stands in a scalar: the two separators of the punctuation block stay themselves. -/
def lineEndText (c : Char) : Char :=
  if c.toNat = 0x2028 || c.toNat = 0x2029 then c else '\n'

/-! ## Scalars -/

/-- White space and line ends passed since the last character of a scalar. -/
structure Gap where
  /-- Spaces since the last character, while no line has ended. -/
  spaces : List Char := []
  broken : Bool := false
  first : List Char := []
  more : List Char := []
deriving Repr

/-- A gap as text: spaces are kept, one line end is a space, of several the first is dropped. -/
def Gap.text (g : Gap) : List Char :=
  if g.broken then
    match g.first with
    | ['\n'] => if g.more.isEmpty then [' '] else g.more
    | first => first ++ g.more
  else g.spaces

def Gap.space (g : Gap) (c : Char) : Gap :=
  if g.broken then g else { g with spaces := g.spaces ++ [c] }

def Gap.lineEnd (g : Gap) (c : Char) : Gap :=
  if g.broken then { g with more := g.more ++ [lineEndText c] }
  else { spaces := [], broken := true, first := [lineEndText c] }

def Gap.isOpen (g : Gap) : Bool := g.broken || !g.spaces.isEmpty

def endsPlain (inFlow : Bool) : List Char → Bool
  | [] => true
  | c :: rest => (c = ':' && atBlank rest) || (inFlow && ",?[]\x7b\x7d".toList.contains c)

/-- **A plain scalar**: words and the folded gaps between them, up to an indicator, a comment, a
shallower line or a line that divides documents. Returns the text, the cursor behind the last gap and
whether a line ended there; nothing for a tab in the indentation. `indent` is the least column of a
continuation line. -/
def plainScalar? (inFlow : Bool) (indent : Int) : Nat → Cursor → Gap → List Char →
    Option (List Char × Cursor × Bool)
  | 0, c, gap, acc => some (acc.reverse, c, gap.broken)
  | fuel + 1, c, gap, acc =>
    match c.rest with
    | [] => some (acc.reverse, c, gap.broken)
    | ch :: rest =>
      if isSpace ch then
        if gap.broken && c.column < indent && ch = '\t' then none
        else plainScalar? inFlow indent fuel c.skip (gap.space ch) acc
      else if isBreak ch then plainScalar? inFlow indent fuel c.skipLine (gap.lineEnd ch) acc
      else if gap.isOpen && (ch = '#' || (c.column = 0 && atDocumentMark c.rest) ||
          (!inFlow && (c.column : Int) < indent)) then
        some (acc.reverse, c, gap.broken)
      else if endsPlain inFlow (ch :: rest) then some (acc.reverse, c, gap.broken)
      else plainScalar? inFlow indent fuel c.skip {} (ch :: (gap.text.reverse ++ acc))

def escapeChar? : Char → Option Char
  | '0' => some (Char.ofNat 0)
  | 'a' => some (Char.ofNat 7)
  | 'b' => some (Char.ofNat 8)
  | 't' | '\t' => some '\t'
  | 'n' => some '\n'
  | 'v' => some (Char.ofNat 11)
  | 'f' => some (Char.ofNat 12)
  | 'r' => some '\r'
  | 'e' => some (Char.ofNat 0x1B)
  | ' ' => some ' '
  | '"' => some '"'
  | '\'' => some '\''
  | '\\' => some '\\'
  | 'N' => some (Char.ofNat 0x85)
  | '_' => some (Char.ofNat 0xA0)
  | 'L' => some (Char.ofNat 0x2028)
  | 'P' => some (Char.ofNat 0x2029)
  | _ => none

def escapeWidth? : Char → Option Nat
  | 'x' => some 2
  | 'u' => some 4
  | 'U' => some 8
  | _ => none

/-- The character that an escape stands for, and how many characters after the backslash spell it. -/
def escape? : List Char → Option (Char × Nat)
  | [] => none
  | c :: rest =>
    match escapeChar? c with
    | some d => some (d, 1)
    | none =>
      match escapeWidth? c with
      | some width =>
        if (rest.take width).length = width then (Text.codePoint? (rest.take width)).map (·, width + 1)
        else none
      | none => none

/-- **A quoted scalar**, from behind its opening quote. In single quotes a doubled quote is one; in
double quotes a backslash starts an escape, and before a line end it joins the lines. -/
def quotedScalar? (quote : Char) : Nat → Cursor → Gap → List Char → Option (List Char × Cursor)
  | 0, _, _, _ => none
  | fuel + 1, c, gap, acc =>
    if c.column = 0 && atDocumentMark c.rest then none
    else
      match c.rest with
      | [] => none
      | ch :: rest =>
        if isSpace ch then quotedScalar? quote fuel c.skip (gap.space ch) acc
        else if isBreak ch then quotedScalar? quote fuel c.skipLine (gap.lineEnd ch) acc
        else
          let acc := gap.text.reverse ++ acc
          if ch = quote then
            if quote = '\'' && rest.head? = some '\'' then
              quotedScalar? quote fuel (c.skip 2) {} ('\'' :: acc)
            else some (acc.reverse, c.skip)
          else if quote = '"' && ch = '\\' then
            if rest.head?.any isBreak then
              quotedScalar? quote fuel c.skip.skipLine { broken := true } acc
            else
              match escape? rest with
              | some (d, width) => quotedScalar? quote fuel (c.skip (width + 1)) {} (d :: acc)
              | none => none
          else quotedScalar? quote fuel c.skip {} (ch :: acc)

/-! ## Tags -/

def isTagChar (c : Char) : Bool :=
  c.isAlphanum || "-_;/?:@&=+$,.!~*'()[]%".toList.contains c

/-- A tag after its `!`, in its short form, and the cursor behind it. -/
def tag? (c : Cursor) : Option (String × Cursor) :=
  let body := c.rest.drop 1
  match body with
  | '<' :: rest =>
    let uri := rest.takeWhile (fun d => d ≠ '>' && isTagChar d)
    match rest.drop uri.length with
    | '>' :: tail =>
      if uri.isEmpty || !atBlank tail then none
      else
        let name := String.ofList uri
        some (((Text.after? "tag:yaml.org,2002:" name).map ("!!" ++ ·)).getD name, c.skip (uri.length + 3))
    | _ => none
  | '!' :: rest =>
    let suffix := rest.takeWhile isTagChar
    if suffix.isEmpty || !atBlank (rest.drop suffix.length) then none
    else some ("!!" ++ String.ofList suffix, c.skip (suffix.length + 2))
  | rest =>
    let suffix := rest.takeWhile isTagChar
    if suffix.contains '!' || !atBlank (rest.drop suffix.length) then none
    else some ("!" ++ String.ofList suffix, c.skip (suffix.length + 1))

/-! ## The scanner -/

structure Candidate where
  /-- A key must be here: the token stands at the indentation of its block. -/
  required : Bool
  /-- How many tokens precede it. -/
  place : Nat
  line : Nat
  column : Nat
  index : Nat
deriving Repr

/-- The state of the scanner: what is left, the tokens so far (last one first), the open block
indentations, the possible key of each open flow collection (innermost first, the block's last), and
whether a key may start here. -/
structure Scanner where
  cursor : Cursor
  tokens : List Token := []
  count : Nat := 0
  indent : Int := -1
  outer : List Int := []
  candidates : List (Option Candidate) := [none]
  mayStartKey : Bool := true

namespace Scanner

def inFlow (s : Scanner) : Bool := s.candidates.length > 1

def emitAt (s : Scanner) (kind : Token.Kind) (line column : Nat) : Scanner :=
  { s with tokens := ⟨kind, line, column⟩ :: s.tokens, count := s.count + 1 }

def emit (s : Scanner) (kind : Token.Kind) : Scanner := s.emitAt kind s.cursor.line s.cursor.column

def insertAt (s : Scanner) (place : Nat) (token : Token) : Scanner :=
  let later := s.count - place
  { s with tokens := s.tokens.take later ++ token :: s.tokens.drop later, count := s.count + 1 }

/-- Past white space, comments and line ends. A line end in block context lets a key start. -/
def skipBlanks : Nat → Scanner → Scanner
  | 0, s => s
  | fuel + 1, s =>
    match s.cursor.rest with
    | [] => s
    | c :: _ =>
      if c = ' ' || (c = '\t' && (s.inFlow || !s.mayStartKey)) || (c.toNat = 0xFEFF && s.cursor.column = 0) then
        skipBlanks fuel { s with cursor := s.cursor.skip }
      else if c = '#' then
        let comment := s.cursor.rest.takeWhile (fun d => !isBreak d)
        skipBlanks fuel { s with cursor := s.cursor.skip comment.length }
      else if isBreak c then
        skipBlanks fuel
          { s with cursor := s.cursor.skipLine, mayStartKey := s.mayStartKey || !s.inFlow }
      else s

/-- A possible key that can no longer be one, since its line has ended or it is too far away. -/
def isStale (s : Scanner) (k : Candidate) : Bool :=
  k.line < s.cursor.line || k.index + 1024 < s.cursor.index

/-- Forgets the keys that can no longer be; nothing when one of them had to be a key. -/
def dropStale? (s : Scanner) : Option Scanner :=
  if s.candidates.any (fun k => k.any fun k => s.isStale k && k.required) then none
  else some { s with candidates := s.candidates.map (fun k => k.filter (!s.isStale ·)) }

/-- Forgets the innermost possible key; nothing when it had to be a key. -/
def dropCandidate? (s : Scanner) : Option Scanner :=
  match s.candidates with
  | some k :: rest => if k.required then none else some { s with candidates := none :: rest }
  | _ => some s

/-- Remembers the cursor as the place of a possible key, if a key may start here. -/
def saveCandidate? (s : Scanner) : Option Scanner :=
  if s.mayStartKey then
    let k : Candidate := {
      required := !s.inFlow && s.indent = s.cursor.column
      place := s.count
      line := s.cursor.line
      column := s.cursor.column
      index := s.cursor.index }
    s.dropCandidate?.map (fun s => { s with candidates := some k :: s.candidates.drop 1 })
  else some s

def unroll (column : Int) : List Int → Scanner → Scanner
  | [], s => s
  | outer :: rest, s =>
    if s.indent > column then
      unroll column rest { s.emit .blockEnd with indent := outer, outer := rest }
    else s

/-- Closes the blocks deeper than a column, in block context. -/
def unrollTo (s : Scanner) (column : Int) : Scanner :=
  if s.inFlow then s else unroll column s.outer s

/-- Opens a block at a column deeper than the current one; `place` is where its token goes. -/
def roll (s : Scanner) (column : Nat) (place : Option Nat) (token : Token) : Scanner :=
  if s.inFlow || s.indent ≥ column then s
  else
    let s := { s with outer := s.indent :: s.outer, indent := column }
    match place with
    | some place => s.insertAt place token
    | none => { s with tokens := token :: s.tokens, count := s.count + 1 }

def take (s : Scanner) (kind : Token.Kind) (width : Nat := 1) : Scanner :=
  let s := s.emit kind
  { s with cursor := s.cursor.skip width }

def finish? (s : Scanner) : Option Scanner :=
  let s := if s.cursor.column = 0 then s
    else { s with cursor := { s.cursor with line := s.cursor.line + 1, column := 0 } }
  ((unroll (-1) s.outer s).dropCandidate?).map (·.emit .streamEnd)

def documentMark? (s : Scanner) (kind : Token.Kind) : Option Scanner :=
  ((unroll (-1) s.outer s).dropCandidate?).map fun s => { s.take kind 3 with mayStartKey := false }

def openFlow? (s : Scanner) (kind : Token.Kind) : Option Scanner :=
  s.saveCandidate?.map fun s =>
    { s.take kind with candidates := none :: s.candidates, mayStartKey := true }

def closeFlow? (s : Scanner) (kind : Token.Kind) : Option Scanner :=
  s.dropCandidate?.map fun s =>
    { s.take kind with
      candidates := if s.inFlow then s.candidates.drop 1 else s.candidates, mayStartKey := false }

def entry? (s : Scanner) : Option Scanner :=
  s.dropCandidate?.map fun s => { s.take .flowEntry with mayStartKey := true }

def blockEntry? (s : Scanner) : Option Scanner :=
  if !s.inFlow && !s.mayStartKey then none
  else
    let s := s.roll s.cursor.column none ⟨.blockSequence, s.cursor.line, s.cursor.column⟩
    s.dropCandidate?.map fun s => { s.take .blockEntry with mayStartKey := true }

def key? (s : Scanner) : Option Scanner :=
  if !s.inFlow && !s.mayStartKey then none
  else
    let s := s.roll s.cursor.column none ⟨.blockMapping, s.cursor.line, s.cursor.column⟩
    s.dropCandidate?.map fun s => { s.take .key with mayStartKey := !s.inFlow }

/-- The colon before a value. With a possible key before it, the key's tokens go to its place. -/
def value? (s : Scanner) : Option Scanner :=
  match s.candidates with
  | some k :: rest =>
    let s := s.insertAt k.place ⟨.key, k.line, k.column⟩
    let s := s.roll k.column (some k.place) ⟨.blockMapping, k.line, k.column⟩
    some ({ s with candidates := none :: rest, mayStartKey := false }.take .value)
  | _ =>
    if s.inFlow then some { s.take .value with mayStartKey := false }
    else if !s.mayStartKey then none
    else
      let s := s.roll s.cursor.column none ⟨.blockMapping, s.cursor.line, s.cursor.column⟩
      some { s.take .value with mayStartKey := true }

def tagged? (s : Scanner) : Option Scanner :=
  match s.saveCandidate?, tag? s.cursor with
  | some s, some (name, cursor) => some { s.emit (.tag name) with cursor, mayStartKey := false }
  | _, _ => none

def quoted? (s : Scanner) (quote : Char) : Option Scanner :=
  match s.saveCandidate?, quotedScalar? quote (s.cursor.rest.length + 1) s.cursor.skip {} [] with
  | some s, some (text, cursor) =>
    some { s.emit (.scalar (String.ofList text) false) with cursor, mayStartKey := false }
  | _, _ => none

def plain? (s : Scanner) : Option Scanner :=
  match s.saveCandidate?,
    plainScalar? s.inFlow (s.indent + 1) (s.cursor.rest.length + 1) s.cursor {} [] with
  | some s, some (text, cursor, broken) =>
    some { s.emit (.scalar (String.ofList text) true) with cursor, mayStartKey := broken }
  | _, _ => none

def startsPlain (inFlow : Bool) : List Char → Bool
  | [] => false
  | c :: rest =>
    !(isSpace c || isBreak c || "-?:,[]\x7b\x7d#&*!|>'\"%@`".toList.contains c) ||
      (c = '-' && !rest.head?.any isSpace) ||
      (!inFlow && (c = '?' || c = ':') && !atBlank rest)

/-- The next token and the ones it implies; nothing where none can start. Block scalars, anchors,
aliases and directives are not part of the documents this library reads. -/
def step? (s : Scanner) : Option Scanner := do
  let s := skipBlanks (s.cursor.rest.length + 1) s
  let s ← s.dropStale?
  let s := s.unrollTo s.cursor.column
  match s.cursor.rest with
  | [] => s.finish?
  | c :: rest =>
    if s.cursor.column = 0 && c = '%' then none
    else if s.cursor.column = 0 && atDocumentMark (c :: rest) then
      s.documentMark? (if c = '-' then .documentStart else .documentEnd)
    else if c = '[' then s.openFlow? .openSequence
    else if c = '\x7b' then s.openFlow? .openMapping
    else if c = ']' then s.closeFlow? .closeSequence
    else if c = '\x7d' then s.closeFlow? .closeMapping
    else if c = ',' then s.entry?
    else if c = '-' && atBlank rest then s.blockEntry?
    else if c = '?' && (s.inFlow || atBlank rest) then s.key?
    else if c = ':' && (s.inFlow || atBlank rest) then s.value?
    else if c = '!' then s.tagged?
    else if c = '\'' then s.quoted? '\''
    else if c = '"' then s.quoted? '"'
    else if startsPlain s.inFlow (c :: rest) then s.plain?
    else none

def run : Nat → Scanner → List Token
  | 0, s => (s.emit .invalid).tokens.reverse
  | fuel + 1, s =>
    match s.step? with
    | none => (s.emit .invalid).tokens.reverse
    | some next =>
      match next.tokens with
      | ⟨.streamEnd, _, _⟩ :: _ => next.tokens.reverse
      | _ => run fuel next

end Scanner

/-- **The tokens of a text.** The last one is `streamEnd` or `invalid`. -/
def Token.scan (text : String) : List Token :=
  let chars := text.toList
  let chars := if chars.head? = some (Char.ofNat 0xFEFF) then chars.drop 1 else chars
  if chars.all isReadable then Scanner.run (chars.length + 2) { cursor := { rest := chars } }
  else [⟨.invalid, 0, 0⟩]

end Polyglot.Yaml
