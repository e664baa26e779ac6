import Polyglot.Text.Printable

/-!
# Quoted text

A text between double quotes, or a character between single ones, in which every character that is
not printable is spelled by an escape: the seven letter escapes, `\x` with two digits for the other
ASCII controls, `\u` with four and `\U` with eight digits for the rest. Quoted text is pure
printable text, so it can be shown in a message and read back.
-/

namespace Polyglot.Text

def hexDigit (n : Nat) : Char := Nat.digitChar n

def hex (width n : Nat) : List Char :=
  match width with
  | 0 => []
  | width + 1 => hex width (n / 16) ++ [hexDigit (n % 16)]

def letterEscape? (c : Char) : Option Char :=
  match c.toNat with
  | 7 => some 'a'
  | 8 => some 'b'
  | 12 => some 'f'
  | 10 => some 'n'
  | 13 => some 'r'
  | 9 => some 't'
  | 11 => some 'v'
  | _ => none

def quoteChar (quote c : Char) : List Char :=
  if c = quote || c = '\\' then ['\\', c]
  else if isPrintable c then [c]
  else
    match letterEscape? c with
    | some letter => ['\\', letter]
    | none =>
      if c.toNat < 0x80 then '\\' :: 'x' :: hex 2 c.toNat
      else if c.toNat < 0x10000 then '\\' :: 'u' :: hex 4 c.toNat
      else '\\' :: 'U' :: hex 8 c.toNat

def quoteChars (cs : List Char) : List Char := cs.flatMap (quoteChar '"')

def quoted (s : String) : String := String.ofList ('"' :: quoteChars s.toList ++ ['"'])

def quotedChar (c : Char) : String := String.ofList ('\'' :: quoteChar '\'' c ++ ['\''])

def byteEscape (b : Nat) : List Char := '\\' :: 'x' :: hex 2 b

end Polyglot.Text
