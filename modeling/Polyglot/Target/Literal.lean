import Polyglot.Symbol
import Polyglot.Target.Basic

/-!
# Spelling constants

Numbers are written as the document spells them, with the suffix that their type has in the target. Texts
and characters are quoted.
-/

namespace Polyglot

/-- A number with a point, without the suffix of a type. -/
def floatText (s : String) : String :=
  let isSuffix := fun c => "fFdDmM".toList.contains c
  let s := String.ofList (s.toList.reverse.dropWhile isSuffix).reverse
  if s.toList.any (fun c => c = '.' || c = 'e' || c = 'E') || Text.occurs "Inf" s || Text.occurs "NaN" s then s
  else s ++ ".0"

/-- The first character of a text; a text without any has the replacement character. -/
def firstChar (s : String) : Char := s.toList.head?.getD '�'

namespace Target

def plainLiteral (t : Target) (c : Constant) (type : Option Ty) : String :=
  let primitive := type.bind Ty.primitive?
  match c.kind with
  | .null => t.dialect.null
  | .bool => c.text
  | .int =>
    if primitive = some .int64 || primitive = some .uint64 then c.text ++ t.dialect.longSuffix else c.text
  | .float => floatText c.text ++ (if primitive = some .float32 then t.dialect.floatSuffix else "")
  | .string => Text.quoted c.text
  | .char => Text.quotedChar (firstChar c.text)

def literal (t : Target) (c : Constant) (type : Option Ty) : String :=
  match t, c.kind with
  | cpp, .char => "u" ++ t.plainLiteral c type
  | cpp, .int =>
    match type.bind Ty.primitive? with
    | some .uint64 => c.text ++ "ULL"
    | some .uint32 | some .uint16 | some .uint8 => c.text ++ "U"
    | _ => t.plainLiteral c type
  | rust, .string => "String::from(" ++ Text.quoted c.text ++ ")"
  | rust, .char => "(" ++ t.plainLiteral c type ++ " as u16)"
  | typescript, .char => Text.quoted c.text
  | _, _ => t.plainLiteral c type

/-- The zero of a primitive type, or null, in the words that the targets share. -/
def plainDefault (t : Target) (type : Option Ty) : String :=
  match type with
  | some (.primitive p) =>
    if p = .bool then "false"
    else if p = .char then "'\\0'"
    else if p.isFloating then t.plainLiteral ⟨.float, "0"⟩ type
    else t.plainLiteral ⟨.int, "0"⟩ type
  | _ => t.dialect.null

end Target

end Polyglot
