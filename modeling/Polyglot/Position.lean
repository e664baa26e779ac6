import Polyglot.Text.Basic

/-!
# Positions in a document
-/

namespace Polyglot

/-- A place in a document. Line and column are what the document says, so they may be any integer. -/
structure Position where
  file : String := ""
  line : Int := 0
  column : Int := 0
deriving Repr, DecidableEq, Inhabited

/-- `file:line:column`, or `<unknown>` for a place with neither file nor line. -/
def Position.text (p : Position) : String :=
  if p.file = "" && p.line = 0 then "<unknown>"
  else p.file ++ ":" ++ Text.signedDecimal p.line ++ ":" ++ Text.signedDecimal p.column

end Polyglot
