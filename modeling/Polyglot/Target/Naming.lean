import Polyglot.Target.Basic
import Polyglot.Text.Case

/-!
# Names in a target

Names are fitted to the habits of the target: Java and TypeScript write members and locals in camel case,
Rust in snake case, C++ and C# as they are. A name that is a reserved word of the target is escaped.
-/

namespace Polyglot

namespace Text

/-- The capitals at the front in lower case. The last one of several stays, if a small letter follows:
it begins the next word. -/
def lowerLead (isFirst : Bool) : List Char → List Char
  | [] => []
  | c :: cs =>
    if !isUpper c then c :: cs
    else if !isFirst && cs.head?.any isLower then c :: cs
    else toLower c :: lowerLead false cs

/-- **A name in camel case**: `Name` is `name`, `XMLReader` is `xmlReader`. -/
def lowerFirst (s : String) : String := String.ofList (lowerLead true s.toList)

/-- Does a word begin at a capital, between two neighbours? -/
def beginsWord (prev next : Option Char) : Bool :=
  prev.any isLower || (prev.any isUpper && next.any isLower)

/-- The characters of a name with `_` before each new word, all in lower case. -/
def snakeChars (prev : Option Char) : List Char → List Char
  | [] => []
  | c :: cs =>
    let rest := snakeChars (some c) cs
    if !isUpper c then c :: rest
    else if beginsWord prev cs.head? then '_' :: toLower c :: rest
    else toLower c :: rest

/-- **A name in snake case**: `MyName` is `my_name`, `XMLReader` is `xml_reader`. -/
def snakeCase (s : String) : String := String.ofList (snakeChars none s.toList)

end Text

namespace Target

def keywords : Target → List String
  | cpp => [
      "alignas", "alignof", "and", "asm", "auto", "bitand", "bitor", "bool", "break", "case", "catch", "char",
      "char16_t", "char32_t", "class", "compl", "const", "constexpr", "const_cast", "continue", "decltype", "default",
      "delete", "do", "double", "dynamic_cast", "else", "enum", "explicit", "export", "extern", "false", "float",
      "for", "friend", "goto", "if", "inline", "int", "long", "mutable", "namespace", "new", "noexcept", "not",
      "nullptr", "operator", "or", "private", "protected", "public", "register", "reinterpret_cast", "return",
      "short", "signed", "sizeof", "static", "static_assert", "static_cast", "struct", "switch", "template", "this",
      "thread_local", "throw", "true", "try", "typedef", "typeid", "typename", "union", "unsigned", "using",
      "virtual", "void", "volatile", "wchar_t", "while", "xor"]
  | csharp => [
      "abstract", "as", "base", "bool", "break", "byte", "case", "catch", "char", "checked", "class", "const",
      "continue", "decimal", "default", "delegate", "do", "double", "else", "enum", "event", "explicit", "extern",
      "false", "finally", "fixed", "float", "for", "foreach", "goto", "if", "implicit", "in", "int", "interface",
      "internal", "is", "lock", "long", "namespace", "new", "null", "object", "operator", "out", "override", "params",
      "private", "protected", "public", "readonly", "ref", "return", "sbyte", "sealed", "short", "sizeof",
      "stackalloc", "static", "string", "struct", "switch", "this", "throw", "true", "try", "typeof", "uint", "ulong",
      "unchecked", "unsafe", "ushort", "using", "virtual", "void", "volatile", "while"]
  | java => [
      "abstract", "assert", "boolean", "break", "byte", "case", "catch", "char", "class", "const", "continue",
      "default", "do", "double", "else", "enum", "extends", "final", "finally", "float", "for", "goto", "if",
      "implements", "import", "instanceof", "int", "interface", "long", "native", "new", "package", "private",
      "protected", "public", "return", "short", "static", "strictfp", "super", "switch", "synchronized", "this",
      "throw", "throws", "transient", "try", "void", "volatile", "while"]
  | rust => [
      "as", "break", "const", "continue", "crate", "else", "enum", "extern", "false", "fn", "for", "if", "impl", "in",
      "let", "loop", "match", "mod", "move", "mut", "pub", "ref", "return", "static", "struct", "super", "trait",
      "true", "type", "unsafe", "use", "where", "while", "async", "await", "dyn", "abstract", "become", "box", "do",
      "final", "macro", "override", "priv", "typeof", "unsized", "virtual", "yield", "try"]
  | typescript => [
      "break", "case", "catch", "class", "const", "continue", "debugger", "default", "delete", "do", "else", "enum",
      "export", "extends", "false", "finally", "for", "function", "if", "import", "in", "instanceof", "new", "null",
      "return", "super", "switch", "this", "throw", "true", "try", "typeof", "var", "void", "while", "with", "as",
      "implements", "interface", "let", "package", "private", "protected", "public", "static", "yield", "any",
      "boolean", "constructor", "declare", "get", "module", "require", "number", "set", "string", "symbol", "type",
      "from", "of"]

/-- A reserved word, made a name. -/
def escape : Target → String → String
  | csharp, word => "@" ++ word
  | rust, word => "r#" ++ word
  | _, word => word ++ "_"

def identifier (t : Target) (name : String) : String :=
  if t.keywords.contains name then t.escape name else name

/-- A name in the habit of the target. -/
def fit : Target → String → String
  | java, name | typescript, name => Text.lowerFirst name
  | rust, name => Text.snakeCase name
  | _, name => name

/-- **The name of a member or a local.** -/
def fitted (t : Target) (name : String) : String := t.identifier (t.fit name)

end Target

end Polyglot
