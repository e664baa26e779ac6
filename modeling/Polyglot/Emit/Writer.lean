import Polyglot.Fault

/-!
# The writer

Text is written into a buffer that knows its indentation level and whether it is at the start of a line.
Buffers are stacked: a *capture* writes into a fresh buffer, which goes on where the one below it stands,
and takes the text out of it again. Whatever happens inside a capture, the buffers below are left as they
were.
-/

namespace Polyglot

/-- Text, and where its end stands. -/
structure Buffer where
  text : String := ""
  level : Nat := 0
  atLineStart : Bool := true
deriving Repr, DecidableEq

def endsLine (s : String) : Bool := s.toList.getLast? = some '\n'

def beginsLine (s : String) : Bool := s.toList.head? = some '\n'

namespace Buffer

/-- The buffer with a text behind it, exactly as it is. -/
def append (b : Buffer) (s : String) : Buffer :=
  if s = "" then b else { b with text := b.text ++ s, atLineStart := endsLine s }

/-- The buffer with a text behind it, which is indented if it starts a line. -/
def write (unit : String) (b : Buffer) (s : String) : Buffer :=
  if s = "" then b
  else if b.atLineStart && !beginsLine s then b.append (Text.repeated unit b.level ++ s)
  else b.append s

def breakLine (b : Buffer) : Buffer := { b with text := b.text ++ "\n", atLineStart := true }

def endLine (b : Buffer) : Buffer := if b.atLineStart then b else b.breakLine

end Buffer

/-- A stack of buffers. -/
structure Writer where
  /-- One level of indentation. -/
  unit : String
  top : Buffer := {}
  /-- The buffers below it, from the top down. -/
  below : List Buffer := []
deriving Repr, DecidableEq

namespace Writer

/-- An empty writer; without a unit of indentation it takes four spaces. -/
def empty (unit : String) : Writer := { unit := if unit = "" then "    " else unit }

def mapTop (f : Buffer → Buffer) (w : Writer) : Writer := { w with top := f w.top }

def depth (w : Writer) : Nat := w.below.length + 1

def level (w : Writer) : Nat := w.top.level

def text (w : Writer) : String := (w.below.getLast?.getD w.top).text

/-! ## Writing -/

def write (s : String) (w : Writer) : Writer := w.mapTop (·.write w.unit s)

def writeRaw (s : String) (w : Writer) : Writer := w.mapTop (·.append s)

def writeLine (s : String) (w : Writer) : Writer := w.mapTop (fun b => (b.write w.unit s).breakLine)

def endLine (w : Writer) : Writer := w.mapTop (·.endLine)

/-- Writes an empty line, without indentation. -/
def blankLine (w : Writer) : Writer := w.mapTop (·.endLine.breakLine)

def indent (w : Writer) : Writer := w.mapTop (fun b => { b with level := b.level + 1 })

def outdent (w : Writer) : Writer := w.mapTop (fun b => { b with level := b.level - 1 })

def dropBreaks (s : String) : String :=
  String.ofList (s.toList.reverse.dropWhile (· = '\n')).reverse

def writeLines (s : String) (w : Writer) : Writer :=
  (Text.split '\n' (dropBreaks s)).foldl (fun w line => if line = "" then w.blankLine else w.writeLine line) w

def indentation (w : Writer) (levels : Nat) : String := Text.repeated w.unit levels

/-! ## Capturing -/

def push (w : Writer) : Writer :=
  { w with top := { level := w.top.level, atLineStart := w.top.atLineStart }, below := w.top :: w.below }

/-- The writer with no more buffers than `depth`, which is at least one. -/
def unwind (depth : Nat) (w : Writer) : Writer :=
  match (w.top :: w.below).drop (w.depth - depth) with
  | [] => w
  | top :: below => { w with top, below }

/-- **The end of a capture** that began at a depth: the text of its buffer, with the writer as it was. -/
def settle {ε : Type} (unbalanced : Nat → Nat → ε) (depth : Nat) (outcome : Except ε Unit) (w : Writer) :
    Except ε String × Writer :=
  match outcome with
  | .error e => (.error e, w.unwind depth)
  | .ok () =>
    if w.depth = depth + 1 then (.ok w.top.text, w.unwind depth)
    else (.error (unbalanced w.depth (depth + 1)), w.unwind depth)

def unbalanced (found wanted : Nat) : Fault :=
  .assertion ("writer: unbalanced capture, depth " ++ Text.decimal found ++ " want " ++ Text.decimal wanted)

/-- A text that goes on in a line: without the indentation of its first line. -/
def inlined (s : String) : String :=
  String.ofList (s.toList.dropWhile (fun c => c = ' ' || c = '\t'))

end Writer

end Polyglot
