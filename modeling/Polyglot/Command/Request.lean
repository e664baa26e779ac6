import Polyglot.Command.Flag

/-!
# Requests

What a command line asks for. The first word that is neither a flag nor the value of one names the command; the
other words are its arguments. A command line is refused for its command first, then for its flags, then for the
number of its arguments.
-/

namespace Polyglot

inductive Command where
  | translate
  | check
  | runtime
  | help
deriving Repr, DecidableEq

namespace Command

def all : List Command := [translate, check, runtime, help]

def name : Command → String
  | translate => "translate"
  | check => "check"
  | runtime => "runtime"
  | help => "help"

def usage : Command → String
  | translate => "translate <compilation.yaml>"
  | check => "check <compilation.yaml>"
  | runtime => "runtime <backend> <dir>"
  | help => "help [command]"

def summary : Command → String
  | translate => "Emit every declared type for the selected backends"
  | check => "Report constructs the selected backends cannot emit, without writing output"
  | runtime => "Write the runtime support sources of a backend"
  | help => "Help about any command"

def description : Command → String
  | runtime =>
    "Write the support sources generated code of a backend links against.\n\n" ++
      "Only cpp (phase/runtime.h) and rust (phase.rs) ship a runtime; the other backends\n" ++
      "use their standard libraries."
  | help =>
    "Help provides help for any command in the application.\n" ++
      "Simply type phase help [path to command] for full details."
  | c => c.summary

/-- How many arguments a command takes, if that is fixed. -/
def arity? : Command → Option Nat
  | translate | check => some 1
  | runtime => some 2
  | help => none

def ofName? (name : String) : Option Command := all.find? (·.name = name)

/-! ## Commands that are meant -/

/-- A row of the table of edit distances, from the row above it. `left` is the entry before. -/
def nextRow (c : Char) : (left : Nat) → List Char → List Nat → List Nat
  | left, x :: xs, diagonal :: above :: row =>
    let entry := if x = c then diagonal else 1 + min diagonal (min left above)
    entry :: nextRow c entry xs (above :: row)
  | _, _, _ => []

/-- **The edit distance**: how many characters to insert, erase or replace. -/
def distance (a b : List Char) : Nat :=
  let first := List.range (b.length + 1)
  let last := a.foldl (fun row c =>
    let left := row.headD 0 + 1
    left :: nextRow c left b row) first
  last.getLastD 0

/-- The commands that a word may stand for: those it is close to or begins like, whatever its case. Nobody means
`help`. -/
def similar (word : String) : List Command :=
  let word := Text.lowerCase word
  all.filter fun c => c ≠ help && (distance word.toList c.name.toList ≤ 2 || Text.hasLead word c.name)

def unknown (word : String) : Fault :=
  let similar := similar word
  let suggestion := if similar.isEmpty then ""
    else "\n\nDid you mean this?\n" ++ String.join (similar.map fun c => "\t" ++ c.name ++ "\n")
  .plain ("unknown command " ++ Text.quoted word ++ " for \"phase\"" ++ suggestion)

end Command

/-- The command word of a command line, and the other words. Two dashes end the search. -/
def commandWord? : List String → Option (String × List String)
  | [] => none
  | word :: rest =>
    if word = "--" then none
    else if Flag.takesNext word then
      match rest with
      | [] => none
      | value :: rest => (commandWord? rest).map fun (c, words) => (c, word :: value :: words)
    else if word = "" || Text.hasLead "-" word then
      (commandWord? rest).map fun (c, words) => (c, word :: words)
    else some (word, rest)

inductive Request where
  | describe (command : Option Command)
  | run (command : Command) (flags : Flags) (arguments : List String)
deriving Repr

def Request.read (words : List String) : Except Fault Request := do
  match commandWord? words with
  | none => do
    let (_, _) ← Flags.read words
    pure (.describe none)
  | some (word, rest) =>
    match Command.ofName? word with
    | none => throw (Command.unknown word)
    | some c => do
      let (flags, arguments) ← Flags.read rest
      if flags.help then pure (.describe (some c))
      else
        match c, c.arity? with
        | .help, _ => pure (.describe (arguments.head?.bind Command.ofName?))
        | _, some n =>
          if arguments.length = n then pure (.run c flags arguments)
          else throw (.plain ("accepts " ++ Text.decimal n ++ " arg(s), received " ++
            Text.decimal arguments.length))
        | _, none => pure (.run c flags arguments)

/-! ## Descriptions -/

namespace Command

def flagLines (flags : List (Flag × String)) : String :=
  let lead := fun f : Flag =>
    (if f.letter?.isSome then "  " ++ f.shown else "      " ++ f.shown) ++
      (if f.valueName = "" then "" else " " ++ f.valueName)
  let width := (flags.map fun f => (lead f.1).length).foldl max 0
  Text.join "\n" (flags.map fun (f, summary) =>
    lead f ++ Text.repeated " " (width - (lead f).length + 3) ++ summary)

def sharedFlags : List (Flag × String) := Flag.all.map fun f => (f, f.summary)

def manual (c : Command) : String :=
  c.description ++ "\n\nUsage:\n  phase " ++ c.usage ++ " [flags]\n\nFlags:\n" ++
    flagLines [(.help, "help for " ++ c.name)] ++ "\n\nGlobal Flags:\n" ++ flagLines sharedFlags ++ "\n"

def overview : String :=
  let commands := [check, help, runtime, translate]
  let row := fun c : Command => "\n  " ++ c.name ++ Text.repeated " " (12 - c.name.length) ++ c.summary
  "phase emits one source unit per declared type for every selected backend.\n\n" ++
    "Input is a compilation document (YAML) holding the declared types, their member\n" ++
    "bodies and the external types they reference. Settings come from the nearest\n" ++
    "phase.toml, PHASE_* environment variables and the flags below, in increasing\n" ++
    "precedence.\n\nExamples:\n" ++
    "  phase translate app.yaml -o out            # all backends into out/<backend>/\n" ++
    "  phase translate app.yaml -b rust,cpp       # selected backends\n" ++
    "  phase translate app.yaml --bundle app.txtar\n" ++
    "  phase check app.yaml -b java               # report unsupported constructs only\n" ++
    "  phase runtime cpp out/cpp                  # write the C++ support header\n\n" ++
    "Usage:\n  phase [command]\n\nAvailable Commands:" ++ String.join (commands.map row) ++
    "\n\nFlags:\n" ++
    flagLines ((Flag.all.take 3).map (fun f => (f, f.summary)) ++ [(.help, "help for phase")] ++
      (Flag.all.drop 3).map fun f => (f, f.summary)) ++
    "\n\nUse \"phase [command] --help\" for more information about a command.\n"

end Command

def Command.describe : Option Command → String
  | none => Command.overview
  | some c => c.manual

end Polyglot
