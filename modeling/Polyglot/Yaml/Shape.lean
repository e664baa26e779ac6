import Polyglot.Yaml.Node

/-!
# Reading values off a tree

A document's tree is read into records field by field. Reading goes on after a value of the wrong shape,
so that the whole document is looked at: the state of `Reading` is whether any value had the wrong
shape. It stops at a scalar whose tag contradicts its text.

Null is nothing: it leaves a text empty, a flag false and a list without elements, and it drops out of a
list of texts.
-/

namespace Polyglot.Yaml

inductive Broken where
  /-- A tag that its scalar does not bear, or something other than a mapping to be merged. -/
  | contradiction
deriving Repr, DecidableEq

/-- A reading: its state is true when some value had the wrong shape. -/
abbrev Reading := StateT Bool (Except Broken)

namespace Reading

/-- Notes a value of the wrong shape, and goes on with another. -/
def wrong {α : Type} (instead : α) : Reading α := do
  set true
  pure instead

/-- What a reading comes to: nothing when some value had the wrong shape. -/
def finish {α : Type} (r : Reading α) : Except Broken (Option α) := do
  let (a, wrongShape) ← r.run false
  pure (if wrongShape then none else some a)

end Reading

/-- A scalar bears its tag when it would be given the tag for its text, or is a string by it; an integer
may be called a float. -/
def bearsTag (tag : Tag) (text : String) : Bool :=
  tag = .string || tag = Tag.ofPlain text || (tag = .float && Tag.ofPlain text = .int)

namespace Node

def text? : Node → Reading (Option String)
  | .scalar _ tag text =>
    if bearsTag tag text then pure (if tag = .null then none else some text) else throw .contradiction
  | _ => Reading.wrong none

/-- A text; null is empty. -/
def text (n : Node) : Reading String := do
  pure ((← n.text?).getD "")

def yesWords : List String := ["y", "Y", "yes", "Yes", "YES", "on", "On", "ON"]

def noWords : List String := ["n", "N", "no", "No", "NO", "off", "Off", "OFF"]

def flag : Node → Reading Bool
  | .scalar _ tag text =>
    if !bearsTag tag text then throw .contradiction
    else
      match tag with
      | .null => pure false
      | .bool => pure (text ∈ ["true", "True", "TRUE"])
      | .string =>
        if text ∈ yesWords then pure true
        else if text ∈ noWords then pure false
        else Reading.wrong false
      | _ => Reading.wrong false
  | _ => Reading.wrong false

/-- A whole number; null is zero, a number with a fraction loses it. -/
def number : Node → Reading Int
  | .scalar _ tag text =>
    if !bearsTag tag text then throw .contradiction
    else
      match tag with
      | .null => pure 0
      | .int | .float =>
        match wholeNumber? text with
        | some n => pure n
        | none => Reading.wrong 0
      | _ => Reading.wrong 0
  | _ => Reading.wrong 0

/-- A list; null is empty. -/
def list {α : Type} (item : Node → Reading α) : Node → Reading (List α)
  | .sequence _ items => items.mapM item
  | .scalar _ .null text => if bearsTag .null text then pure [] else throw .contradiction
  | .scalar _ tag text => if bearsTag tag text then Reading.wrong [] else throw .contradiction
  | .mapping _ _ => Reading.wrong []

def texts (n : Node) : Reading (List String) := do
  pure ((← n.list text?).filterMap id)

def option {α : Type} (item : Node → Reading α) (n : Node) : Reading (Option α) :=
  match n with
  | .scalar _ .null text => if bearsTag .null text then pure none else throw .contradiction
  | n => do pure (some (← item n))

/-! ## Records -/

structure Record where
  entries : List (String × Node) := []
deriving Repr

/-- Two keys clash when they are of one kind and have one text; collections have no text. -/
def keysClash : Node → Node → Bool
  | .scalar _ _ a, .scalar _ _ b => a == b
  | .sequence _ _, .sequence _ _ => true
  | .mapping _ _, .mapping _ _ => true
  | _, _ => false

def hasClash : List (Node × Node) → Bool
  | [] => false
  | (k, _) :: rest => rest.any (fun e => keysClash k e.1) || hasClash rest

def isMergeKey : Node → Bool
  | .scalar _ .merge _ => true
  | _ => false

/-- The entries with a key that is a text; a null key is passed over. -/
def keyed : List (Node × Node) → Reading (List (String × Node))
  | [] => pure []
  | (k, v) :: rest =>
    if isMergeKey k then keyed rest
    else do
      let key ← k.text?
      let more ← keyed rest
      pure (match key with
        | some key => (key, v) :: more
        | none => more)

def mergeSources : List (Node × Node) → Reading (List (List (Node × Node)))
  | [] => pure []
  | (k, v) :: rest =>
    if isMergeKey k then
      match v with
      | .mapping _ entries => pure [entries]
      | .sequence _ items => items.mapM fun
        | .mapping _ entries => pure entries
        | _ => throw .contradiction
      | .scalar _ _ _ => throw .contradiction
    else mergeSources rest

/-- A mapping as a record. Entries that are merged in give way to the mapping's own. -/
def record : Node → Reading Record
  | .mapping _ entries =>
    if hasClash entries then Reading.wrong {}
    else do
      let own ← keyed entries
      let sources ← mergeSources entries
      let merged ← sources.mapM fun entries =>
        if hasClash entries then Reading.wrong [] else keyed entries
      pure { entries := own ++ merged.flatten }
  | .scalar _ tag text => if bearsTag tag text then Reading.wrong {} else throw .contradiction
  | .sequence _ _ => Reading.wrong {}

namespace Record

def find? (r : Record) (key : String) : Option Node := r.entries.lookup key

/-- What is read off the node under a key, or a value for its absence. -/
def field {α : Type} (r : Record) (key : String) (absent : α) (item : Node → Reading α) : Reading α :=
  match r.find? key with
  | some n => item n
  | none => pure absent

def text (r : Record) (key : String) : Reading String := r.field key "" Node.text

def flag (r : Record) (key : String) : Reading Bool := r.field key false Node.flag

def number (r : Record) (key : String) : Reading Int := r.field key 0 Node.number

def texts (r : Record) (key : String) : Reading (List String) := r.field key [] Node.texts

def option {α : Type} (r : Record) (key : String) (item : Node → Reading α) : Reading (Option α) :=
  r.field key none (Node.option item)

def list {α : Type} (r : Record) (key : String) (item : Node → Reading α) : Reading (List α) :=
  r.field key [] (Node.list item)

def options {α : Type} (r : Record) (key : String) (item : Node → Reading α) :
    Reading (List (Option α)) :=
  r.list key (Node.option item)

end Record

end Node

end Polyglot.Yaml
