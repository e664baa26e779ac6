/-!
# Cutting, joining and replacing text

The operations on text that the rest of the library is written with. Each one is stated on lists of
characters, where recursion is on the data, and lifted to `String`.
-/

namespace Polyglot.Text

/-- Pieces of a list between occurrences of a separator; one more piece than separators. -/
def splitChars (sep : Char) : List Char → List (List Char)
  | [] => [[]]
  | c :: rest =>
    if c = sep then [] :: splitChars sep rest
    else
      match splitChars sep rest with
      | [] => [[c]]
      | piece :: pieces => (c :: piece) :: pieces

def split (sep : Char) (s : String) : List String :=
  (splitChars sep s.toList).map String.ofList

def afterChars? : (lead s : List Char) → Option (List Char)
  | [], s => some s
  | _ :: _, [] => none
  | l :: lead, c :: s => if l = c then afterChars? lead s else none

theorem afterChars?_append (lead rest : List Char) : afterChars? lead (lead ++ rest) = some rest := by
  induction lead with
  | nil => rfl
  | cons c lead ih => simp [afterChars?, ih]

theorem eq_append_of_afterChars? {lead text rest : List Char} (h : afterChars? lead text = some rest) :
    text = lead ++ rest := by
  induction lead generalizing text with
  | nil => exact Option.some.inj h
  | cons l lead ih =>
    cases text with
    | nil => cases h
    | cons c text =>
      rw [afterChars?] at h
      split at h
      · next same => rw [same, ih h, List.cons_append]
      · cases h

/-- What follows `lead` in a text that starts with it. -/
def after? (lead s : String) : Option String :=
  (afterChars? lead.toList s.toList).map String.ofList

def hasLead (lead s : String) : Bool := (afterChars? lead.toList s.toList).isSome

/-- What precedes `tail` in a text that ends with it. -/
def before? (tail s : String) : Option String :=
  (afterChars? tail.toList.reverse s.toList.reverse).map (fun cs => String.ofList cs.reverse)

def dropTail (tail s : String) : String := (before? tail s).getD s

def dropLead (lead s : String) : String := (after? lead s).getD s

def occursChars (part : List Char) : List Char → Bool
  | [] => part.isEmpty
  | c :: rest => (afterChars? part (c :: rest)).isSome || occursChars part rest

def occurs (part s : String) : Bool := occursChars part.toList s.toList

def has (c : Char) (s : String) : Bool := s.toList.contains c

/-- The text before and after the first occurrence of a character. -/
def cutFirst? (sep : Char) (s : String) : Option (String × String) :=
  let head := s.toList.takeWhile (· ≠ sep)
  match s.toList.drop head.length with
  | [] => none
  | _ :: tail => some (String.ofList head, String.ofList tail)

def cutLast? (sep : Char) (s : String) : Option (String × String) :=
  let tail := s.toList.reverse.takeWhile (· ≠ sep)
  match s.toList.reverse.drop tail.length with
  | [] => none
  | _ :: head => some (String.ofList head.reverse, String.ofList tail.reverse)

/-- The text after the last occurrence of `part`, if any. -/
def afterLast? (part s : String) : Option String :=
  go s.toList none
where
  /-- Scans left to right, keeping what follows the latest occurrence. -/
  go : List Char → Option String → Option String
    | [], found => found
    | c :: rest, found =>
      match afterChars? part.toList (c :: rest) with
      | some tail => go rest (some (String.ofList tail))
      | none => go rest found

def mapChars (f : Char → List Char) (s : String) : String :=
  String.ofList (s.toList.flatMap f)

def replaceChar (c : Char) (text : String) (s : String) : String :=
  mapChars (fun d => if d = c then text.toList else [d]) s

/-- Replaces marks in one pass, the next characters being behind one that has been replaced. -/
def replaceFrom (marks : List (String × String)) : (skipped : Nat) → List Char → List Char
  | _, [] => []
  | skipped + 1, _ :: cs => replaceFrom marks skipped cs
  | 0, c :: cs =>
    match marks.find? fun m => (afterChars? m.1.toList (c :: cs)).isSome with
    | some (mark, text) => text.toList ++ replaceFrom marks (mark.length - 1) cs
    | none => c :: replaceFrom marks 0 cs

/-- **A text with its marks replaced**, from left to right. Where several of them stand, the one listed first is
replaced. No mark is empty. -/
def replaceMarks (marks : List (String × String)) (s : String) : String :=
  String.ofList (replaceFrom marks 0 s.toList)

def join (sep : String) : List String → String
  | [] => ""
  | [s] => s
  | s :: rest => s ++ sep ++ join sep rest

def repeated (s : String) : Nat → String
  | 0 => ""
  | n + 1 => s ++ repeated s n

/-- White space: the ASCII blanks, the next-line and no-break characters and the spaces and line
separators of the general punctuation block. -/
def isBlank (c : Char) : Bool :=
  let n := c.toNat
  (9 ≤ n && n ≤ 13) || n == 0x20 || n == 0x85 || n == 0xA0 || n == 0x1680 ||
    (0x2000 ≤ n && n ≤ 0x200A) || n == 0x2028 || n == 0x2029 || n == 0x202F || n == 0x205F || n == 0x3000

def trim (s : String) : String :=
  String.ofList ((s.toList.dropWhile isBlank).reverse.dropWhile isBlank).reverse

def dropTrailing (c : Char) (s : String) : String :=
  String.ofList (s.toList.reverse.dropWhile (· = c)).reverse

def decimal (n : Nat) : String := String.ofList (Nat.toDigits 10 n)

/-- Decimal text of an integer, with a minus sign when it is negative. -/
def signedDecimal : Int → String
  | .ofNat n => decimal n
  | .negSucc n => "-" ++ decimal (n + 1)

/-- The number that a list of decimal digits is; none when something else is in it, or nothing. -/
def digitsNat? (cs : List Char) : Option Nat :=
  if cs.isEmpty || cs.any (!·.isDigit) then none
  else some (cs.foldl (fun n c => 10 * n + (c.toNat - 48)) 0)

/-- **The integer of 64 bits that a text spells**: digits with an optional sign, within the range. -/
def int64? (s : String) : Option Int :=
  let value := match s.toList with
    | '-' :: cs => (digitsNat? cs).map (fun n => -(n : Int))
    | '+' :: cs => (digitsNat? cs).map Int.ofNat
    | cs => (digitsNat? cs).map Int.ofNat
  value.filter fun v => -Int.pow 2 63 ≤ v && v < Int.pow 2 63

/-- Order of texts by code point, the same as the order of their UTF-8 bytes. -/
def before (a b : String) : Bool := decide (a < b)

def sorted (xs : List String) : List String := xs.mergeSort (fun a b => !before b a)

end Polyglot.Text
