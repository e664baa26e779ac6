import Polyglot.Yaml.Token

/-!
# Documents as trees

A document is a tree of scalars, sequences and mappings, each with the line and column where it
starts, counted from one. `Node.ofTokens?` reads the tree off the tokens by recursive descent; what it
accepts is the block and flow grammar, in which a missing node is an empty scalar.
-/

namespace Polyglot.Yaml

structure Mark where
  line : Nat
  column : Nat
deriving Repr, DecidableEq

/-- A tree of a document. A mapping keeps its entries in order, repeated keys included. -/
inductive Node where
  | scalar (mark : Mark) (tag : Tag) (text : String)
  | sequence (mark : Mark) (items : List Node)
  | mapping (mark : Mark) (entries : List (Node × Node))
deriving Repr

namespace Node

def mark : Node → Mark
  | scalar m _ _ | sequence m _ | mapping m _ => m

def isNull : Node → Bool
  | scalar _ .null _ => true
  | _ => false

def missing (token : Token) : Node := scalar ⟨token.line + 1, token.column + 1⟩ .null ""

def markOf (token : Token) : Mark := ⟨token.line + 1, token.column + 1⟩

/-- A scalar: a tag of the document wins, a quoted one is a string, a plain one is what it looks
like. -/
def ofScalar (mark : Mark) (tag : Option String) (text : String) (isPlain : Bool) : Node :=
  let tag :=
    match tag with
    | some name => if name = "!" then none else some (Tag.ofName name)
    | none => none
  scalar mark (tag.getD
    (if !isPlain then .string else if text = "<<" then .merge else Tag.ofPlain text)) text

inductive Production where
  /-- A node; the flags say whether block collections and unindented sequences may stand here. -/
  | node (block unindented : Bool)
  | blockItems
  /-- The rest of a sequence that stands at its key's column. -/
  | unindentedItems
  | blockEntries
  | flowItems (first : Bool)
  | flowEntries (first : Bool)

/-- What a production yields: nodes, or entries of a mapping. -/
inductive Yield where
  | node (n : Node)
  | items (ns : List Node)
  | entries (es : List (Node × Node))

def Yield.asNode : Yield → Node
  | .node n => n
  | .items ns => sequence ⟨0, 0⟩ ns
  | .entries es => mapping ⟨0, 0⟩ es

def Yield.asItems : Yield → List Node
  | .items ns => ns
  | _ => []

def Yield.asEntries : Yield → List (Node × Node)
  | .entries es => es
  | _ => []

abbrev Parse := Production → List Token → Option (Yield × List Token)

/-- A node, or the empty scalar when one of the `stops` comes first. -/
def optional (parse : Parse) (production : Production) (stops : List Token.Kind) :
    List Token → Option (Node × List Token)
  | [] => none
  | t :: ts =>
    if stops.contains t.kind then some (missing t, t :: ts)
    else (parse production (t :: ts)).map (fun (y, rest) => (y.asNode, rest))

def tagged (parse : Parse) (block unindented : Bool) (mark : Option Mark) (tag : Option String) :
    List Token → Option (Node × List Token)
  | [] => none
  | t :: ts =>
    let start := mark.getD (markOf t)
    match t.kind with
    | .scalar text isPlain => some (ofScalar start tag text isPlain, ts)
    | .openSequence =>
      (parse (.flowItems true) ts).map fun (y, rest) => (sequence start y.asItems, rest)
    | .openMapping =>
      (parse (.flowEntries true) ts).map fun (y, rest) => (mapping start y.asEntries, rest)
    | .blockSequence =>
      if block then (parse .blockItems ts).map fun (y, rest) => (sequence start y.asItems, rest) else none
    | .blockMapping =>
      if block then (parse .blockEntries ts).map fun (y, rest) => (mapping start y.asEntries, rest) else none
    | .blockEntry =>
      if unindented then
        (parse .unindentedItems (t :: ts)).map fun (y, rest) => (sequence start y.asItems, rest)
      else tag.map fun _ => (ofScalar start tag "" true, t :: ts)
    | _ => tag.map fun _ => (ofScalar start tag "" true, t :: ts)

/-- The value of an entry: what follows a colon, or the empty scalar. -/
def entryValue (parse : Parse) (production : Production) (stops : List Token.Kind) :
    List Token → Option (Node × List Token)
  | [] => none
  | t :: ts =>
    if t.kind = .value then optional parse production stops ts else some (missing t, t :: ts)

/-- One step of every production, given the parse of the smaller ones. -/
def parseStep (parse : Parse) : Parse
  | _, [] => none
  | .node block unindented, t :: ts =>
    match t.kind with
    | .tag name =>
      (tagged parse block unindented (some (markOf t)) (some name) ts).map fun (n, rest) => (.node n, rest)
    | _ => (tagged parse block unindented none none (t :: ts)).map fun (n, rest) => (.node n, rest)
  | .blockItems, t :: ts =>
    match t.kind with
    | .blockEntry => do
      let (item, rest) ← optional parse (.node true false) [.blockEntry, .blockEnd] ts
      let (more, rest) ← parse .blockItems rest
      some (.items (item :: more.asItems), rest)
    | .blockEnd => some (.items [], ts)
    | _ => none
  | .unindentedItems, t :: ts =>
    match t.kind with
    | .blockEntry => do
      let (item, rest) ← optional parse (.node true false) [.blockEntry, .key, .value, .blockEnd] ts
      let (more, rest) ← parse .unindentedItems rest
      some (.items (item :: more.asItems), rest)
    | _ => some (.items [], t :: ts)
  | .blockEntries, t :: ts =>
    match t.kind with
    | .key => do
      let (key, rest) ← optional parse (.node true true) [.key, .value, .blockEnd] ts
      let (value, rest) ← entryValue parse (.node true true) [.key, .value, .blockEnd] rest
      let (more, rest) ← parse .blockEntries rest
      some (.entries ((key, value) :: more.asEntries), rest)
    | .blockEnd => some (.entries [], ts)
    | _ => none
  | .flowItems first, t :: ts =>
    if t.kind = .closeSequence then some (.items [], ts)
    else do
      let rest ← if first then some (t :: ts) else if t.kind = .flowEntry then some ts else none
      let (item, rest) ←
        match rest with
        | [] => none
        | t :: ts =>
          match t.kind with
          | .key => do
            let stops := [.value, .flowEntry, .closeSequence]
            let (key, rest) ← optional parse (.node false false) stops ts
            let (value, rest) ← entryValue parse (.node false false) [.flowEntry, .closeSequence] rest
            some (some (mapping (markOf t) [(key, value)]), rest)
          | .closeSequence => some (none, t :: ts)
          | _ => (parse (.node false false) (t :: ts)).map fun (y, rest) => (some y.asNode, rest)
      let (more, rest) ← parse (.flowItems false) rest
      some (.items (item.toList ++ more.asItems), rest)
  | .flowEntries first, t :: ts =>
    if t.kind = .closeMapping then some (.entries [], ts)
    else do
      let rest ← if first then some (t :: ts) else if t.kind = .flowEntry then some ts else none
      let (entry, rest) ←
        match rest with
        | [] => none
        | t :: ts =>
          match t.kind with
          | .key => do
            let stops := [.value, .flowEntry, .closeMapping]
            let (key, rest) ← optional parse (.node false false) stops ts
            let (value, rest) ← entryValue parse (.node false false) [.flowEntry, .closeMapping] rest
            some (some (key, value), rest)
          | .closeMapping => some (none, t :: ts)
          | _ => do
            let (y, rest) ← parse (.node false false) (t :: ts)
            let next ← rest.head?
            some (some (y.asNode, missing next), rest)
      let (more, rest) ← parse (.flowEntries false) rest
      some (.entries (entry.toList ++ more.asEntries), rest)

def parseWithin : Nat → Parse
  | 0 => fun _ _ => none
  | fuel + 1 => parseStep (parseWithin fuel)

inductive Root where
  /-- There is no document in the text. -/
  | empty
  | malformed
  | node (n : Node)
deriving Repr

/-- A document's root, from the tokens behind its start. One token behind the root is looked at. -/
def rootOf (tokens : List Token) : Root :=
  match tokens with
  | [] => .malformed
  | t :: _ =>
    if t.kind = .streamEnd || t.kind = .documentStart || t.kind = .documentEnd then .node (missing t)
    else
      match parseWithin (2 * tokens.length + 2) (.node true false) tokens with
      | some (y, next :: _) => if next.kind = .invalid then .malformed else .node y.asNode
      | _ => .malformed

def ofTokens? (tokens : List Token) : Root :=
  match tokens.dropWhile (·.kind = .documentEnd) with
  | [] => .malformed
  | t :: ts =>
    match t.kind with
    | .streamEnd => .empty
    | .documentStart => rootOf ts
    | _ => rootOf (t :: ts)

def read (text : String) : Root := ofTokens? (Token.scan text)

end Node

end Polyglot.Yaml
