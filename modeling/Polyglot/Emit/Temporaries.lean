import Polyglot.Type.Index

/-!
# Temporaries

Names for variables that emission introduces. Each hint has a counter that only grows, so a name that was
handed out is never handed out again.
-/

namespace Polyglot

structure Temporaries where
  counters : List (String × Nat) := []
deriving Repr

namespace Temporaries

def count (t : Temporaries) (hint : String) : Nat := (t.counters.lookup hint).getD 0

/-- **A new name**: the hint and its next number. -/
def next (t : Temporaries) (hint : String) : String × Temporaries :=
  let n := t.count hint + 1
  (hint ++ Text.decimal n, { counters := assocSet hint n t.counters })

end Temporaries

end Polyglot
