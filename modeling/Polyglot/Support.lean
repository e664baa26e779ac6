import Polyglot.Support.Cpp
import Polyglot.Support.Rust
import Polyglot.Target.Basic

/-!
# Support files

The targets that manage ownership need code of their own beside what is emitted; the others have it in their
standard libraries.
-/

namespace Polyglot

/-- A file that emitted code refers to; its path is relative to the directory of the target. -/
structure SupportFile where
  path : String
  lines : List String
deriving Repr, DecidableEq

def SupportFile.text (f : SupportFile) : String := String.join (f.lines.map (· ++ "\n"))

def Target.supportFiles : Target → List SupportFile
  | .cpp => [{ path := "phase/runtime.h", lines := Support.cppHeader }]
  | .rust => [{ path := "phase.rs", lines := Support.rustModule }]
  | .csharp | .java | .typescript => []

def Target.supported : List Target := Target.all.filter fun t => !t.supportFiles.isEmpty

end Polyglot
