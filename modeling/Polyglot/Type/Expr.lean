import Polyglot.Fault
import Polyglot.Type.Hierarchy
import Polyglot.Type.Index

/-!
# Type expressions

A type is written as a dotted name, its arguments in angle brackets, and a pair of square brackets for each array around it:
`List<int>[]`.

A name is read byte by byte, each byte taken as the Latin-1 character of its number. A character outside ASCII therefore is part
of a name when all bytes of its encoding happen to be letters there; otherwise the name may end inside it, and such a text is
never a type expression.
-/

namespace Polyglot

structure TypeExpr where
  name : String
  args : List TypeExpr := []
  arrays : Nat := 0
deriving Repr

namespace TypeExpr

/-! ## Names -/

def bytesOf (c : Char) : List Nat := (String.ofList [c]).toUTF8.toList.map (·.toNat)

/-- Is the Latin-1 character of this number a letter, a digit, an underscore or a dot? -/
def isNameByte (b : Nat) : Bool :=
  (0x30 ≤ b && b ≤ 0x39) || (0x41 ≤ b && b ≤ 0x5A) || (0x61 ≤ b && b ≤ 0x7A) || b == 0x5F || b == 0x2E ||
    b == 0xAA || b == 0xB5 || b == 0xBA ||
    (0xC0 ≤ b && b ≤ 0xD6) || (0xD8 ≤ b && b ≤ 0xF6) || (0xF8 ≤ b && b ≤ 0xFF)

def isNameChar (c : Char) : Bool := c.isAlphanum || c = '_' || c = '.'

def unreadBytes (c : Char) : List Nat :=
  if c.toNat < 0x80 then if isNameChar c then [] else [c.toNat]
  else (bytesOf c).dropWhile isNameByte

def byteCount (c : Char) : Nat := if c.toNat < 0x80 then 1 else (bytesOf c).length

/-- What is still to be read: the bytes left of a character that a name ended in, and the characters
behind it. -/
structure Rest where
  bytes : List Nat := []
  chars : List Char
deriving Repr, DecidableEq

/-- The rest between quotes; bytes that belong to no character are escaped. -/
def Rest.quoted (r : Rest) : String :=
  String.ofList ('"' :: r.bytes.flatMap Text.byteEscape ++ Text.quoteChars r.chars ++ ['"'])

/-- The longest name at the front, and what is behind it. -/
def takeName : List Char → List Char × Rest
  | [] => ([], { chars := [] })
  | c :: cs =>
    match unreadBytes c with
    | [] => let (name, rest) := takeName cs; (c :: name, rest)
    | left => if left.length = byteCount c then ([], { chars := c :: cs }) else ([], { bytes := left, chars := cs })

def Rest.skipSpaces (r : Rest) : Rest :=
  if r.bytes.isEmpty then { r with chars := r.chars.dropWhile (· = ' ') } else r

/-- The rest behind a mark, which may have spaces before it. -/
def Rest.accept? (r : Rest) (mark : List Char) : Option Rest :=
  let r := r.skipSpaces
  if r.bytes.isEmpty then (Text.afterChars? mark r.chars).map (fun cs => { chars := cs }) else none

/-! ## Parsing -/

def takeArrays : Nat → Rest → Nat × Rest
  | 0, r => (0, r.skipSpaces)
  | fuel + 1, r =>
    match r.accept? ['[', ']'] with
    | some r => let (n, r) := takeArrays fuel r; (n + 1, r)
    | none => (0, r.skipSpaces)

/-- The further arguments of an argument list, up to its closing bracket. -/
def takeArgs (text : String) (parse : Rest → Except Problem (TypeExpr × Rest)) :
    Nat → Rest → Except Problem (List TypeExpr × Rest)
  | 0, _ => .error (.typeListExpected text)
  | fuel + 1, r => do
    let (arg, r) ← parse r
    match r.accept? ['>'] with
    | some r => .ok ([arg], r)
    | none =>
      match r.accept? [','] with
      | some r => do
        let (args, r) ← takeArgs text parse fuel r
        .ok (arg :: args, r)
      | none => .error (.typeListExpected text)

def parseWithin (text : String) : Nat → Rest → Except Problem (TypeExpr × Rest)
  | 0, _ => .error (.typeNameExpected text)
  | fuel + 1, r => do
    let r := r.skipSpaces
    let (name, after) := if r.bytes.isEmpty then takeName r.chars else ([], r)
    if name.isEmpty && after.bytes.isEmpty then .error (.typeNameExpected text)
    else
      let (args, after) ←
        match after.accept? ['<'] with
        | some r => takeArgs text (parseWithin text fuel) fuel r
        | none => .ok ([], after)
      let (arrays, after) := takeArrays fuel after
      .ok ({ name := String.ofList name, args, arrays }, after)

def parse (text : String) : Except Problem TypeExpr := do
  let chars := text.toList
  let (e, rest) ← parseWithin text (chars.length + 1) { chars }
  let rest := rest.skipSpaces
  if rest.bytes.isEmpty && rest.chars.isEmpty then .ok e
  else .error (.typeTrailing rest.quoted text)

/-! ## Resolution -/

/-- What names of types are looked up in. -/
structure Scope where
  index : TypeIndex
  hierarchy : Hierarchy
  usings : List String
  params : List String := []
  space : String := ""

def arraysOf : Nat → Ty → Ty
  | 0, t => t
  | n + 1, t => arraysOf n (.array t)

def endless : Fault := .crash none

mutual

/-- **The type that an expression means**: a type parameter, a short name, or a definition in reach,
applied to its arguments. -/
def resolve (s : Scope) : TypeExpr → Except Fault Ty
  | ⟨name, args, arrays⟩ => do
    let t ←
      if args.isEmpty && s.params.contains name then pure (.param name)
      else
        match (if args.isEmpty then Ty.alias? name else none) with
        | some t => pure t
        | none =>
          match s.index.resolve? s.usings name args.length s.space with
          | none => throw (.problem none (.unknownType name))
          | some definition =>
            let actual ← resolveAll s args
            if actual.isEmpty then pure definition
            else
              match definition.head? with
              | none => pure definition
              | some head =>
                match s.hierarchy.instantiate? head actual with
                | some t => pure t
                | none => throw endless
    pure (arraysOf arrays t)

def resolveAll (s : Scope) : List TypeExpr → Except Fault (List Ty)
  | [] => pure []
  | e :: es => do
    let t ← resolve s e
    let ts ← resolveAll s es
    pure (t :: ts)

end

def read (s : Scope) (text : String) : Except Fault Ty := do
  match parse text with
  | .error p => throw (.problem none p)
  | .ok e => resolve s e

/-- The type that a text means, with faults reported at a place. -/
def readAt (s : Scope) (place : Position) (text : String) : Except Fault Ty :=
  match read s text with
  | .error (.problem none p) => .error (.problem (some place) p)
  | r => r

end TypeExpr

/-- A type with its parameters replaced, or a crash when that never ends. -/
def Hierarchy.put (H : Hierarchy) (env : TypeEnv) (t : Ty) : Except Fault Ty :=
  match H.substitute? env t with
  | some t => pure t
  | none => throw TypeExpr.endless

end Polyglot
