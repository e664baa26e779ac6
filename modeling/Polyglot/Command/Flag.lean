import Polyglot.Command.Fields
import Polyglot.Settings

/-!
# Flags

A flag has a name (`--output`) and perhaps a letter (`-o`); its value follows it, after `=` or as the next word. A flag with a
`filler` may also stand alone. Letters may be run together as long as each but the last stands alone.
-/

namespace Polyglot

inductive Flag where
  | backend
  | bundle
  | config
  | help
  | json
  | linkRuntime
  | output
  | templates
  | verbose
  | workers
deriving Repr, DecidableEq

namespace Flag

def all : List Flag :=
  [backend, bundle, config, json, linkRuntime, output, templates, verbose, workers]

def name : Flag → String
  | backend => "backend"
  | bundle => "bundle"
  | config => "config"
  | help => "help"
  | json => "json"
  | linkRuntime => "link-runtime"
  | output => "output"
  | templates => "templates"
  | verbose => "verbose"
  | workers => "workers"

def letter? : Flag → Option Char
  | backend => some 'b'
  | help => some 'h'
  | output => some 'o'
  | verbose => some 'v'
  | workers => some 'j'
  | _ => none

/-- The value of a flag that stands alone; without one, the flag takes the next word. -/
def filler? : Flag → Option String
  | help | json | linkRuntime => some "true"
  | verbose => some "+1"
  | _ => none

def valueName : Flag → String
  | backend => "strings"
  | bundle | config | output | templates => "string"
  | verbose => "count"
  | workers => "int"
  | help | json | linkRuntime => ""

def summary : Flag → String
  | backend => "Backends to emit (comma-separated)"
  | bundle => "Write all artifacts into one txtar archive"
  | config => "Configuration file (default: nearest phase.toml)"
  | help => "help"
  | json => "Log as JSON"
  | linkRuntime => "Write the runtime support sources next to the artifacts"
  | output => "Output directory"
  | templates => "Template table merged over the defaults"
  | verbose => "Increase output verbosity (repeat for more detail: -v, -vv, -vvv)"
  | workers => "Units emitted concurrently (default: one per CPU)"

def shown (f : Flag) : String :=
  match f.letter? with
  | some c => String.ofList ['-', c] ++ ", --" ++ f.name
  | none => "--" ++ f.name

def ofName? (name : String) : Option Flag := (help :: all).find? (·.name = name)

def ofLetter? (c : Char) : Option Flag := (help :: all).find? (·.letter? = some c)

/-- Does a word take the one after it for its value? A word that is no flag of every command does, too. -/
def takesNext (word : String) : Bool :=
  !Text.has '=' word &&
    match word.toList with
    | '-' :: '-' :: name => ((all.find? (·.name = String.ofList name)).bind filler?).isNone
    | ['-', c] => c.utf8Size = 1 && ((all.find? (·.letter? = some c)).bind filler?).isNone
    | _ => false

end Flag

structure Flags where
  config : String := ""
  output : Option String := none
  bundle : Option String := none
  backends : Option (List String) := none
  workers : Option Int := none
  templates : Option String := none
  linksRuntime : Option Bool := none
  json : Option Bool := none
  verbosity : Int := 0
  help : Bool := false
deriving Repr, DecidableEq

namespace Flags

def invalid (f : Flag) (value cause : String) : Fault :=
  .plain ("invalid argument " ++ Text.quoted value ++ " for " ++ Text.quoted f.shown ++ " flag: " ++ cause)

def integer (f : Flag) (value : String) : Except Fault Int :=
  (Text.readSigned64 value.toList).mapError fun e =>
    invalid f value ("strconv.ParseInt: parsing " ++ Text.quoted value ++ ": " ++ Settings.integerText e)

def truth (f : Flag) (value : String) : Except Fault Bool :=
  match Settings.truth? value with
  | some b => .ok b
  | none =>
    .error (invalid f value ("strconv.ParseBool: parsing " ++ Text.quoted value ++ ": invalid syntax"))

/-- **A flag with its value.** Backends add up and so does verbosity that stands alone; of other flags the last
one counts. -/
def set (fs : Flags) (f : Flag) (value : String) : Except Fault Flags := do
  match f with
  | .config => pure { fs with config := value }
  | .output => pure { fs with output := some value }
  | .bundle => pure { fs with bundle := some value }
  | .templates => pure { fs with templates := some value }
  | .backend => do
    let names ← (Fields.read value).mapError fun e => invalid f value e.text
    pure { fs with backends := some (fs.backends.getD [] ++ names) }
  | .workers => do
    let n ← integer f value
    pure { fs with workers := some n }
  | .linkRuntime => do
    let b ← truth f value
    pure { fs with linksRuntime := some b }
  | .json => do
    let b ← truth f value
    pure { fs with json := some b }
  | .help => do
    let b ← truth f value
    pure { fs with help := b }
  | .verbose =>
    if value = "+1" then pure { fs with verbosity := fs.verbosity + 1 }
    else do
      let n ← integer f value
      pure { fs with verbosity := n }

/-- A flag that waits for its value, and the fault if none comes. -/
structure Waiting where
  flag : Flag
  fault : Fault

def long (fs : Flags) (word : String) : Except Fault (Flags × Option Waiting) := do
  let body := Text.dropLead "--" word
  if Text.hasLead "-" body || Text.hasLead "=" body then throw (.plain ("bad flag syntax: " ++ word))
  let (name, value) := match Text.cutFirst? '=' body with
    | some (name, value) => (name, some value)
    | none => (body, none)
  match Flag.ofName? name with
  | none => throw (.plain ("unknown flag: --" ++ name))
  | some f =>
    match value <|> f.filler? with
    | some v => do
      let fs ← fs.set f v
      pure (fs, none)
    | none => pure (fs, some ⟨f, .plain ("flag needs an argument: --" ++ name)⟩)

def leadByte (c : Char) : Nat :=
  let n := c.toNat
  if n < 0x80 then n
  else if n < 0x800 then 0xC0 + n >>> 6
  else if n < 0x10000 then 0xE0 + n >>> 12
  else 0xF0 + n >>> 18

/-- How a letter is quoted in a fault: one that is not ASCII shows by its first byte only. -/
def quotedLetter (c : Char) : String := Text.quotedChar (Char.ofNat (leadByte c))

def letters (fs : Flags) : List Char → Except Fault (Flags × Option Waiting)
  | [] => pure (fs, none)
  | c :: rest =>
    let shown := quotedLetter c ++ " in -" ++ String.ofList (c :: rest)
    match Flag.ofLetter? c with
    | none => throw (.plain ("unknown shorthand flag: " ++ shown))
    | some f =>
      match rest, f.filler? with
      | '=' :: v :: value, _ => do
        let fs ← fs.set f (String.ofList (v :: value))
        pure (fs, none)
      | _, some filler => do
        let fs ← fs.set f filler
        letters fs rest
      | v :: value, none => do
        let fs ← fs.set f (String.ofList (v :: value))
        pure (fs, none)
      | [], none => pure (fs, some ⟨f, .plain ("flag needs an argument: " ++ shown)⟩)

/-- The words, with the flag that waits for its value. Two dashes end the flags. -/
def readFrom : Option Waiting → Flags → List String → Except Fault (Flags × List String)
  | none, fs, [] => pure (fs, [])
  | some w, _, [] => throw w.fault
  | some w, fs, word :: rest => do
    let fs ← fs.set w.flag word
    readFrom none fs rest
  | none, fs, word :: rest =>
    if word = "--" then pure (fs, rest)
    else if Text.hasLead "--" word then do
      let (fs, waiting) ← long fs word
      readFrom waiting fs rest
    else if Text.hasLead "-" word && word ≠ "-" then do
      let (fs, waiting) ← letters fs (word.toList.drop 1)
      readFrom waiting fs rest
    else do
      let (fs, words) ← readFrom none fs rest
      pure (fs, word :: words)

/-- **The flags among words**, and the other words. -/
def read (words : List String) : Except Fault (Flags × List String) := readFrom none {} words

def override (fs : Flags) (s : Settings) : Settings where
  directory := fs.output.getD s.directory
  bundle := fs.bundle.getD s.bundle
  targets := fs.backends.getD s.targets
  workers := fs.workers.getD s.workers
  templates := fs.templates.getD s.templates
  linksSupport := fs.linksRuntime.getD s.linksSupport
  logsJson := fs.json.getD s.logsJson
  verbosity := if fs.verbosity > 0 then fs.verbosity else s.verbosity

end Flags

end Polyglot
