import Polyglot.Template.Basic
import Polyglot.Type.Index
import Polyglot.Yaml.Read

/-!
# Tables of templates

A table gives library members a template per target. Tables are merged row by row, the later one winning.
-/

namespace Polyglot

/-- A table: templates by the key of a member and the name of a target. -/
structure Templates where
  rows : List ((String × String) × Template) := []
deriving Repr

namespace Templates

def find? (t : Templates) (symbol target : String) : Option Template := t.rows.lookup (symbol, target)

def add (t : Templates) (symbol target : String) (template : Template) : Templates :=
  { rows := assocSet (symbol, target) template t.rows }

def merge (t other : Templates) : Templates :=
  other.rows.foldl (fun t row => t.add row.1.1 row.1.2 row.2) t

def symbols (t : Templates) : List String := Text.sorted (t.rows.map (·.1.1)).eraseDups

/-- One entry of a table: a member with a text per target. -/
structure Entry where
  symbol : String
  texts : List (String × String)

def ofEntries (entries : List Entry) : Except Fault Templates :=
  entries.foldlM (fun table e =>
    if e.symbol = "" then .error (.plain "template entry without symbol")
    else
      e.texts.foldlM (fun table row => do
        pure (table.add e.symbol row.1 (← Template.parse e.symbol row.2))) table) {}

/-! ## Reading -/

/-- An entry, in which every key but `symbol` names a target. -/
def readEntry (n : Yaml.Node) : Yaml.Reading Entry := do
  let r ← n.record
  let symbol ← r.text "symbol"
  let texts ← (r.entries.filter (·.1 ≠ "symbol")).mapM fun row => do pure (row.1, ← row.2.text)
  pure { symbol, texts }

def readEntries (n : Yaml.Node) : Yaml.Reading (List Entry) := do
  let r ← n.record
  pure ((← r.options "templates" readEntry).filterMap id)

def read (text : String) : Except Fault Templates := do
  match Yaml.read readEntries text with
  | .error f => throw (.context "failed to parse template table" f)
  | .ok entries => ofEntries (entries.getD [])

end Templates

end Polyglot
