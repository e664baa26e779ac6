import Polyglot.Report

/-!
# What a report prints

A table with one row per unit, the diagnostics of all units, and how many units had which outcome. Every column
of the table is as wide as its widest cell.
-/

namespace Polyglot

/-- How many columns of a terminal a character takes: none for marks that combine, two for wide ones. -/
def terminalWidth (c : Char) : Nat :=
  let n := c.toNat
  let within := fun (ranges : List (Nat × Nat)) => ranges.any fun (lo, hi) => lo ≤ n && n ≤ hi
  if within [(0, 0x1F), (0x7F, 0x9F), (0x300, 0x36F), (0x483, 0x489), (0x591, 0x5BD), (0x610, 0x61A),
      (0x64B, 0x65F), (0x200B, 0x200F), (0x20D0, 0x20F0), (0xFE00, 0xFE0F), (0xFE20, 0xFE2F)] then 0
  else if within [(0x1100, 0x115F), (0x2E80, 0x303E), (0x3041, 0x33FF), (0x3400, 0x4DBF), (0x4E00, 0xA4CF),
      (0xA960, 0xA97C), (0xAC00, 0xD7A3), (0xF900, 0xFAFF), (0xFE30, 0xFE6F), (0xFF01, 0xFF60),
      (0xFFE0, 0xFFE6), (0x1F300, 0x1F64F), (0x1F680, 0x1F6FF), (0x1F900, 0x1F9FF), (0x20000, 0x3FFFD)] then 2
  else 1

def terminalWidthOf (s : String) : Nat := s.toList.foldl (fun n c => n + terminalWidth c) 0

def padded (width : Nat) (s : String) : String := s ++ Text.repeated " " (width - terminalWidthOf s)

/-- The widths of columns that hold two rows of cells. -/
def widest : List Nat → List Nat → List Nat
  | [], ws => ws
  | vs, [] => vs
  | v :: vs, w :: ws => max v w :: widest vs ws

/-- **Rows as text**, with columns as wide as their widest cell. -/
def tableText (rows : List (List String)) : String :=
  let widths := (rows.map fun row => row.map terminalWidthOf).foldl widest []
  String.join (rows.map fun row => Text.join " | " (List.zipWith padded widths row) ++ "\n")

namespace Report

/-- The row of a unit. In a check no files are kept, so none are counted. -/
def row (isCheck : Bool) (u : Emission) : List String :=
  [u.target.name, u.type, u.status.text, if isCheck then "-" else Text.decimal u.outputs.length,
    Text.decimal u.diagnostics.length]

def text (isCheck : Bool) (r : Report) : String :=
  tableText (["Backend", "Type", "Status", "Artifacts", "Diagnostics"] :: r.units.map (row isCheck)) ++ "\n" ++
    String.join (r.units.flatMap fun u =>
      u.diagnostics.map fun d => u.target.name ++ " " ++ u.type ++ ": " ++ d.text ++ "\n") ++
    Text.decimal (r.count .ok) ++ " ok, " ++ Text.decimal (r.count .fallback) ++ " fallback, " ++
    Text.decimal (r.count .failed) ++ " failed\n"

def fault? (r : Report) : Option Fault :=
  (Fault.all? r.failures).map fun f =>
    .context (Text.decimal (r.count .failed) ++ " of " ++ Text.decimal r.units.length ++ " units failed") f

end Report

end Polyglot
