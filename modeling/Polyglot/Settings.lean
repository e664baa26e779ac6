import Polyglot.Target.Basic
import Polyglot.Text.Case
import Polyglot.Toml

/-!
# Settings

Where the emitted files go, for which targets, and how much is logged. A settings file overrides the defaults, and the
environment overrides the file. A value need not have the type of its setting as long as it can be read as one: texts are read
as numbers and truth values, numbers are written as texts.
-/

namespace Polyglot

structure Settings where
  directory : String := ""
  /-- One archive for all files, instead of a directory. -/
  bundle : String := ""
  targets : List String := []
  /-- How many units at a time; zero stands for as many as there are processors. -/
  workers : Int := 0
  templates : String := ""
  linksSupport : Bool := false
  logsJson : Bool := false
  verbosity : Int := 0
deriving Repr, DecidableEq

namespace Settings

def default : Settings where
  directory := "out"
  targets := Target.all.map (·.name)

/-! ## Values -/

inductive Given where
  | value (v : Toml.Value)
  /-- A section stands in its place. -/
  | nested (isEmpty : Bool)
deriving Repr

inductive Cause where
  | notInteger (f : Text.IntegerFault)
  | notTruth
  | unfit (expected : String) (given : Given)
  | noSection (v : Toml.Value)
deriving Repr

def integerText : Text.IntegerFault → String
  | .malformed => "invalid syntax"
  | .outOfRange => "value out of range"

def Given.typeName : Given → String
  | value (.text _) => "string"
  | value (.integer _) => "int64"
  | value (.boolean _) => "bool"
  | value (.list _) => "[]interface \x7b\x7d"
  | nested _ => "map[string]interface \x7b\x7d"

def Cause.text : Cause → String
  | notInteger f => "cannot parse value as 'int': strconv.ParseInt: " ++ integerText f
  | notTruth => "cannot parse value as 'bool': strconv.ParseBool: invalid syntax"
  | unfit expected given =>
    "expected type '" ++ expected ++ "', got unconvertible type '" ++ given.typeName ++ "'"
  | noSection (.list _) => "expected a map or struct, got \"slice\""
  | noSection v => "expected a map or struct, got " ++ Text.quoted (Given.value v).typeName

def truth? (s : String) : Option Bool :=
  if ["1", "t", "T", "TRUE", "true", "True"].contains s then some true
  else if ["0", "f", "F", "FALSE", "false", "False"].contains s then some false
  else none

/-- A text, or a number or truth value written as one. -/
def Given.asText : Given → Except Cause String
  | value (.text s) => .ok s
  | value (.integer n) => .ok (Text.signedDecimal n)
  | value (.boolean b) => .ok (if b then "1" else "0")
  | g => .error (.unfit "string" g)

/-- An integer, a text that spells one, or a truth value that counts as one. Nothing counts as zero. -/
def Given.asInteger : Given → Except Cause Int
  | value (.integer n) => .ok n
  | value (.boolean b) => .ok (if b then 1 else 0)
  | value (.text "") => .ok 0
  | value (.text s) => (Text.readSigned64 s.toList).mapError .notInteger
  | g => .error (.unfit "int" g)

/-- A truth value, a text that spells one, or a number that counts as one. Nothing counts as false. -/
def Given.asTruth : Given → Except Cause Bool
  | value (.boolean b) => .ok b
  | value (.integer n) => .ok (n ≠ 0)
  | value (.text "") => .ok false
  | value (.text s) =>
    match truth? s with
    | some b => .ok b
    | none => .error .notTruth
  | g => .error (.unfit "bool" g)

structure Trouble where
  setting : String
  cause : Cause
deriving Repr

def Trouble.text (t : Trouble) : String := "'" ++ t.setting ++ "' " ++ t.cause.text

abbrev Checked (α : Type) := Except (List Trouble) α

/-- Two results side by side; the troubles of both count. -/
def Checked.and {α β γ : Type} (f : α → β → γ) : Checked α → Checked β → Checked γ
  | .ok a, .ok b => .ok (f a b)
  | .error s, .error t => .error (s ++ t)
  | .error s, .ok _ => .error s
  | .ok _, .error t => .error t

def Given.checked {α : Type} (read : Given → Except Cause α) (setting : String) (g : Given) : Checked α :=
  (read g).mapError fun cause => [{ setting, cause }]

def itemTexts (setting : String) : (i : Nat) → List Toml.Value → Checked (List String)
  | _, [] => .ok []
  | i, v :: rest =>
    Checked.and List.cons ((Given.value v).checked Given.asText (setting ++ "[" ++ Text.decimal i ++ "]"))
      (itemTexts setting (i + 1) rest)

/-- A list of texts. A single text is cut at its commas; another single value is a list of its own. -/
def Given.asTexts (setting : String) : Given → Checked (List String)
  | value (.list vs) => itemTexts setting 0 vs
  | value (.text "") => .ok []
  | value (.text s) => .ok (Text.split ',' s)
  | value v => itemTexts setting 0 [v]
  | nested true => .ok []
  | nested false => .error [⟨setting ++ "[0]", .unfit "string" (nested false)⟩]

/-! ## Sources -/

structure Sources where
  file : Toml.Document := {}
  environment : String → Option String := fun _ => none

namespace Sources

/-- The variable of a setting: `log.json` is set by `PHASE_LOG_JSON`. -/
def variableName (setting : String) : String :=
  "PHASE_" ++ Text.mapChars (fun c => [if c = '.' then '_' else c.toUpper]) setting

/-- The variables that are looked at: those of settings, and those of groups of settings. -/
def variableNames : List String :=
  ["output", "output.dir", "output.bundle", "backends", "workers", "templates", "templates.file", "runtime",
    "runtime.link", "log", "log.json", "log.verbosity"].map variableName

/-- The text of the variable of a setting. An empty variable counts as none. -/
def ofEnvironment? (s : Sources) (setting : String) : Option String :=
  (s.environment (variableName setting)).filter (· ≠ "")

/-- The setting that a path of a file is about, whatever its case. -/
def settingOf (p : Toml.Path) : String := Text.lowerCase (Text.join "." p)

def ofFile? (s : Sources) (setting : String) : Option Given :=
  match s.file.values.find? (settingOf ·.1 = setting) with
  | some (_, v) => some (.value v)
  | none =>
    if s.file.sections.any (settingOf ·.1 = setting) then
      some (.nested (!s.file.values.any fun e => Text.hasLead (setting ++ ".") (settingOf e.1)))
    else none

/-- **What is given for a setting**: the environment comes first, then the file, then the default. -/
def get {α : Type} (s : Sources) (read : String → Given → Checked α) (default : α) (setting : String) :
    Checked α :=
  match s.ofEnvironment? setting with
  | some t => read setting (.value (.text t))
  | none => ((s.ofFile? setting).map (read setting)).getD (.ok default)

/-- **What is given for a setting of a group.** A variable for the group itself hides what the file and the
defaults say in it; a value in the place of the group is refused. -/
def getIn {α : Type} (s : Sources) (read : String → Given → Checked α) (default none : α)
    (group name : String) : Checked α :=
  let setting := group ++ "." ++ name
  match s.ofEnvironment? setting, s.ofEnvironment? group with
  | .none, some _ => .ok none
  | _, _ => s.get read default setting

def checkSection (s : Sources) (group : String) : Checked Unit :=
  match s.ofFile? group with
  | some (.value v) =>
    .error [⟨group, .noSection (((s.ofEnvironment? group).map .text).getD v)⟩]
  | _ => .ok ()

end Sources

/-- The settings of a section, unless a value stands in its place. -/
def ofSection {α : Type} (s : Sources) (group : String) (settings : Checked α) : Checked α := do
  s.checkSection group
  settings

def read (s : Sources) : Checked Settings :=
  let text := Given.checked Given.asText
  let integer := Given.checked Given.asInteger
  let truth := Given.checked Given.asTruth
  let output := ofSection s "output" <| Checked.and Prod.mk
    (s.getIn text default.directory "" "output" "dir") (s.getIn text default.bundle "" "output" "bundle")
  let targets := s.get Given.asTexts default.targets "backends"
  let workers := s.get integer default.workers "workers"
  let templates := ofSection s "templates" (s.getIn text default.templates "" "templates" "file")
  let links := ofSection s "runtime" (s.getIn truth default.linksSupport false "runtime" "link")
  let log := ofSection s "log" <| Checked.and Prod.mk
    (s.getIn truth default.logsJson false "log" "json") (s.getIn integer default.verbosity 0 "log" "verbosity")
  let front := Checked.and Prod.mk output (Checked.and Prod.mk targets workers)
  let back := Checked.and Prod.mk templates (Checked.and Prod.mk links log)
  Checked.and (fun (output, targets, workers) (templates, linksSupport, logsJson, verbosity) =>
    { directory := output.1, bundle := output.2, targets, workers, templates, linksSupport, logsJson, verbosity })
    front back

def troubleFault (ts : List Trouble) : Fault :=
  .context "failed to unmarshal config"
    (.plain ("decoding failed due to the following error(s):\n\n" ++ Text.join "\n" (ts.map (·.text))))

/-- **Settings that make sense together**: no count is negative, and the files have a place to go. -/
def validate (s : Settings) : Except Fault Unit :=
  if s.workers < 0 then
    .error (.plain ("workers must not be negative, got " ++ Text.signedDecimal s.workers))
  else if s.verbosity < 0 then
    .error (.plain ("log.verbosity must not be negative, got " ++ Text.signedDecimal s.verbosity))
  else if s.directory = "" && s.bundle = "" then
    .error (.hint "set output.dir or output.bundle" (.plain "no output configured"))
  else .ok ()

end Settings

/-! ## Logging -/

inductive LogLevel where
  | warn
  | info
  | debug
deriving Repr, DecidableEq

def LogLevel.text : LogLevel → String
  | warn => "warn"
  | info => "info"
  | debug => "debug"

def LogLevel.ofVerbosity (v : Int) : LogLevel :=
  if v ≤ 0 then .warn else if v = 1 then .info else .debug

def LogLevel.isTraced (v : Int) : Bool := 3 ≤ v

end Polyglot
