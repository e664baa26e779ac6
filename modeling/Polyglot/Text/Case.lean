/-!
# Letter case

Which characters are upper case, which are lower case, and the one-to-one lower-case form of a character. A run
`(first, last, step)` stands for `first, first + step, …, last`: most scripts list their capitals in one run, the extended Latin
and Cyrillic blocks alternate capital and small.
-/

namespace Polyglot.Text

/-- Some code points in arithmetic progression. -/
structure Run where
  first : Nat
  last : Nat
  step : Nat
deriving Repr, DecidableEq

def Run.holds (r : Run) (n : Nat) : Bool := r.first ≤ n && n ≤ r.last && (n - r.first) % r.step == 0

/-- The runs of a table. Each one begins a gap behind the last code point of the run before. -/
def runs (base : Nat) : List Nat → List Run
  | gap :: width :: step :: rows => ⟨base + gap, base + gap + width, step⟩ :: runs (base + gap + width) rows
  | _ => []

def upperRuns : List Run := runs 0 [
  65,25,1,102,22,1,2,6,1,34,54,2,3,14,2,3,46,2,1,4,2,4,1,1,2,0,1,2,1,1,2,2,1,3,3,1,2,1,1,2,2,1,4,1,1,2,1,1,2,4,2,1,0,1,2,0,1,3,0,
  1,2,1,1,2,2,1,2,0,1,2,1,1,4,0,1,8,0,1,3,0,1,3,0,1,3,14,2,3,16,2,3,0,1,3,0,1,2,2,1,2,56,2,8,1,1,2,1,1,3,0,1,2,3,1,2,6,2,290,0,1,
  2,0,1,4,0,1,9,0,1,7,0,1,2,2,1,2,0,1,2,1,1,2,16,1,2,8,1,36,0,1,3,2,1,4,22,2,6,0,1,3,0,1,2,1,1,3,50,1,49,32,2,10,54,2,1,12,2,3,
  94,2,3,37,1,2890,37,1,2,0,1,6,0,1,723,85,1,2203,42,1,3,2,1,321,148,2,10,96,2,10,7,1,9,5,1,11,7,1,9,7,1,9,5,1,12,6,2,9,7,1,73,3,
  1,13,3,1,13,3,1,13,4,1,12,3,1,263,0,1,5,0,1,4,2,1,3,2,1,3,0,1,4,4,1,7,6,2,1,2,1,3,3,1,11,1,1,6,0,1,62,0,1,2685,47,1,49,0,1,2,2,
  1,3,6,2,1,2,1,2,0,1,3,0,1,9,2,1,2,96,2,9,0,1,2,0,1,5,0,1,31054,44,2,20,26,2,136,12,2,4,60,2,11,4,2,1,8,2,5,0,1,2,0,1,3,0,1,2,0,
  1,4,20,2,1,3,1,2,4,1,2,14,2,1,2,1,2,0,1,7,0,1,6,0,1,2,0,1,29,0,1,22316,25,1,1222,39,1,137,35,1,157,10,1,2,14,1,2,6,1,2,1,1,
  1771,50,1,3054,31,1,21889,31,1,26017,25,1,27,25,1,27,25,1,27,0,1,2,1,1,3,0,1,3,1,1,3,3,1,2,7,1,27,25,1,27,1,1,2,3,1,3,7,1,2,6,
  1,28,1,1,2,3,1,2,4,1,2,0,1,4,6,1,28,25,1,27,25,1,27,25,1,27,25,1,27,25,1,27,25,1,31,24,1,34,24,1,34,24,1,34,24,1,34,24,1,34,0,
  1,4406,33,1]

def lowerRuns : List Run := runs 0 [
  97,25,1,59,0,1,42,23,1,2,7,1,2,54,2,1,16,2,1,46,2,3,4,2,1,1,1,3,0,1,2,0,1,3,0,1,4,1,1,5,0,1,3,0,1,4,2,1,3,0,1,3,4,2,3,0,1,2,1,
  1,2,0,1,3,0,1,4,0,1,2,0,1,3,1,1,3,2,1,7,0,1,3,0,1,3,16,2,1,18,2,1,0,1,3,0,1,2,0,1,4,58,2,1,5,1,3,0,1,3,1,1,2,0,1,5,8,2,1,67,1,
  2,26,1,194,0,1,2,0,1,4,0,1,4,2,1,19,0,1,28,34,1,2,1,1,4,2,1,2,22,2,1,3,1,2,0,1,3,0,1,3,1,1,52,47,1,2,32,2,10,52,2,3,12,2,1,96,
  2,49,40,1,2888,42,1,3,2,1,761,5,1,2179,8,1,120,43,1,64,12,1,2,33,1,103,148,2,1,7,1,2,96,2,1,7,1,9,5,1,11,7,1,9,7,1,9,5,1,11,7,
  1,9,7,1,9,13,1,3,7,1,9,7,1,9,7,1,9,4,1,2,1,1,7,0,1,4,2,1,2,1,1,9,3,1,3,1,1,9,7,1,11,2,1,2,1,1,275,0,1,4,1,1,4,0,1,28,0,1,5,0,1,
  5,0,1,3,1,1,9,3,1,5,0,1,54,0,1,2732,47,1,2,0,1,4,1,1,2,4,2,5,0,1,2,1,1,2,5,1,6,98,2,1,0,1,8,0,1,2,0,1,5,0,1,13,37,1,2,0,1,6,0,
  1,30996,44,2,20,26,2,136,12,2,1,1,1,2,62,2,1,6,1,2,0,1,2,0,1,3,8,2,5,0,1,2,0,1,3,0,1,2,2,1,2,18,2,6,0,1,6,14,2,5,0,1,2,0,1,7,8,
  2,29,0,1,4,0,1,822,42,1,6,8,1,8,79,1,20289,6,1,13,4,1,1066,25,1,1230,39,1,137,35,1,156,10,1,2,14,1,2,6,1,2,1,1,1796,50,1,3022,
  31,1,21889,31,1,26011,25,1,27,6,1,2,17,1,27,25,1,27,3,1,2,0,1,2,6,1,2,10,1,27,25,1,27,25,1,27,25,1,27,25,1,27,25,1,27,25,1,27,
  25,1,27,25,1,27,27,1,29,24,1,2,5,1,27,24,1,2,5,1,27,24,1,2,5,1,27,24,1,2,5,1,27,24,1,2,5,1,2,0,1,1845,9,1,2,19,1,7,5,1,2552,33,
  1]

/-- The runs of a table whose rows end with a number of their own. -/
def shiftedRuns (base : Nat) : List Int → List (Run × Int)
  | gap :: width :: step :: shift :: rows =>
    let first := base + gap.toNat
    (⟨first, first + width.toNat, step.toNat⟩, shift) :: shiftedRuns (first + width.toNat) rows
  | _ => []

/-- The characters with another lower-case form, with the distance to it. -/
def lowerShifts : List (Run × Int) := shiftedRuns 0 [
  65,25,1,32,102,22,1,32,2,6,1,32,34,46,2,1,2,0,1,-199,2,4,2,1,3,14,2,1,3,44,2,1,2,0,1,-121,1,4,2,1,4,0,1,210,1,2,2,1,2,0,1,206,1,
  0,1,1,2,1,1,205,1,0,1,1,3,0,1,79,1,0,1,202,1,0,1,203,1,0,1,1,2,0,1,205,1,0,1,207,2,0,1,211,1,0,1,209,1,0,1,1,4,0,1,211,1,0,1,
  213,2,0,1,214,1,4,2,1,2,0,1,218,1,0,1,1,2,0,1,218,3,0,1,1,2,0,1,218,1,0,1,1,2,1,1,217,1,2,2,1,2,0,1,219,1,0,1,1,4,0,1,1,8,0,1,2,
  1,0,1,1,2,0,1,2,1,0,1,1,2,0,1,2,1,16,2,1,3,16,2,1,3,0,1,2,1,2,2,1,2,0,1,-97,1,0,1,-56,1,38,2,1,2,0,1,-130,2,16,2,1,8,0,1,10795,
  1,0,1,1,2,0,1,-163,1,0,1,10792,3,0,1,1,2,0,1,-195,1,0,1,69,1,0,1,71,1,8,2,1,290,2,2,1,4,0,1,1,9,0,1,116,7,0,1,38,2,2,1,37,2,0,1,
  64,2,1,1,63,2,16,1,32,2,8,1,32,36,0,1,8,9,22,2,1,6,0,1,-60,3,0,1,1,2,0,1,-7,1,0,1,1,3,2,1,-130,1,15,1,80,1,31,1,32,49,32,2,1,10,
  52,2,1,2,0,1,15,1,12,2,1,3,94,2,1,3,37,1,48,2890,37,1,7264,2,0,1,7264,6,0,1,7264,723,79,1,38864,1,5,1,8,2203,42,1,-3008,3,2,1,
  -3008,321,148,2,1,10,0,1,-7615,2,94,2,1,10,7,1,-8,9,5,1,-8,11,7,1,-8,9,7,1,-8,9,5,1,-8,12,6,2,-8,9,7,1,-8,25,7,1,-8,9,7,1,-8,9,
  7,1,-8,9,1,1,-8,1,1,1,-74,1,0,1,-9,12,3,1,-86,1,0,1,-9,12,1,1,-8,1,1,1,-100,13,1,1,-8,1,1,1,-112,1,0,1,-7,12,1,1,-128,1,1,1,
  -126,1,0,1,-9,298,0,1,-7517,4,0,1,-8383,1,0,1,-8262,7,0,1,28,46,15,1,16,20,0,1,1,819,25,1,26,1841,47,1,48,49,0,1,1,2,0,1,-10743,
  1,0,1,-3814,1,0,1,-10727,3,4,2,1,2,0,1,-10780,1,0,1,-10749,1,0,1,-10783,1,0,1,-10782,2,0,1,1,3,0,1,1,9,1,1,-10815,1,98,2,1,9,2,
  2,1,5,0,1,1,31054,44,2,1,20,26,2,1,136,12,2,1,4,60,2,1,11,2,2,1,2,0,1,-35332,1,8,2,1,5,0,1,1,2,0,1,-42280,3,2,2,1,4,18,2,1,2,0,
  1,-42308,1,0,1,-42319,1,0,1,-42315,1,0,1,-42305,1,0,1,-42308,2,0,1,-42258,1,0,1,-42282,1,0,1,-42261,1,0,1,928,1,14,2,1,2,0,1,
  -48,1,0,1,-42307,1,0,1,-35384,1,2,2,1,7,0,1,1,6,2,2,1,29,0,1,1,22316,25,1,32,1222,39,1,40,137,35,1,40,157,10,1,39,2,14,1,39,2,6,
  1,39,2,1,1,39,1771,50,1,64,3054,31,1,32,21889,31,1,32,31393,33,1,34]

def isUpper (c : Char) : Bool := if c.toNat < 0x80 then c.isUpper else upperRuns.any (·.holds c.toNat)

def isLower (c : Char) : Bool := if c.toNat < 0x80 then c.isLower else lowerRuns.any (·.holds c.toNat)

/-- The lower-case form of a character, itself when it has none. -/
def toLower (c : Char) : Char :=
  if c.toNat < 0x80 then c.toLower
  else
    match lowerShifts.find? (fun row => row.1.holds c.toNat) with
    | some (_, shift) => Char.ofNat (Int.toNat (c.toNat + shift))
    | none => c

def lowerCase (s : String) : String := String.ofList (s.toList.map toLower)

end Polyglot.Text
