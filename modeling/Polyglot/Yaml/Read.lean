import Polyglot.Fault
import Polyglot.Yaml.Shape

/-!
# Reading a text

A text is malformed, or its values have the wrong shape, or it is read. Only the first document of a text
counts.
-/

namespace Polyglot.Yaml

/-- **The value that the first document of a text is read as**; nothing when there is none. -/
def read {α : Type} (item : Node → Reading α) (text : String) : Except Fault (Option α) :=
  match Node.read text with
  | .malformed => .error .malformed
  | .empty => .ok none
  | .node n =>
    match (Node.option item n).finish with
    | .error .contradiction => .error .malformed
    | .ok none => .error .shape
    | .ok (some a) => .ok a

def root (text : String) : Except Fault Node :=
  match Node.read text with
  | .malformed => .error .malformed
  | .empty => .ok (.scalar ⟨0, 0⟩ .null "")
  | .node n => .ok n

end Polyglot.Yaml
