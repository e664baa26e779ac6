import Polyglot.Command.Host
import Polyglot.Command.Request
import Polyglot.Command.Table
import Polyglot.Prelude
import Polyglot.Support

/-!
# Running commands

What a request does to the system it is made on. Settings come first and are checked before anything is read.
Files of units that were emitted are written even when other units failed; the faults are told at the end.
-/

namespace Polyglot

abbrev Run (m : Type → Type) := ExceptT Fault m

namespace Host

variable {m : Type → Type} [Monad m]

/-- An operation of a host; its failure is told in a context. -/
def run {α : Type} (context : String) (operation : m (Except String α)) : Run m α :=
  ExceptT.mk do
    let result ← operation
    pure (result.mapError fun cause => .context context (.plain cause))

def settingsFile : String := "phase.toml"

/-- The nearest settings file: in a directory or in those above it, of which there are at most `fuel`. -/
def nearestSettings? (host : Host m) : (fuel : Nat) → (directory : String) → m (Option String)
  | 0, _ => pure none
  | fuel + 1, directory => do
    let path := Path.join [directory, settingsFile]
    let isPresent ← host.isPresent path
    if isPresent then pure (some path)
    else
      let above := Path.directory directory
      if above = directory then pure none else host.nearestSettings? fuel above

/-- **The settings for a request**: those of the file it names or of the nearest one, with its flags over
them. -/
def settings (host : Host m) (flags : Flags) : Run m Settings := do
  let directory ← host.directory
  let nearest ← host.nearestSettings? (directory.length + 1) directory
  let path := if flags.config ≠ "" then some flags.config else nearest
  let file ← match path with
    | none => pure {}
    | some path => do
      let context := "failed to read config file " ++ path
      let text ← run context (host.readText path)
      match Toml.read? text with
      | some d => pure d
      | none => throw (.context context (.plain "malformed settings"))
  let environment ← host.environment
  match Settings.read { file, environment } with
  | .error troubles => throw (Settings.troubleFault troubles)
  | .ok s => do
    let s := flags.override s
    s.validate
    pure s

def writeFile (host : Host m) (path text : String) : Run m Unit := do
  run ("failed to create directory for " ++ path) (host.makeDirectory (Path.directory path))
  run ("failed to write " ++ path) (host.writeText path text)

/-- The support files of a target under a directory; the answer is their paths. -/
def writeSupport (host : Host m) (target : Target) (directory : String) : Run m (List String) :=
  target.supportFiles.mapM fun f => do
    let path := Path.join [directory, f.path]
    host.writeFile path f.text
    pure path

def writeReport (host : Host m) (s : Settings) (r : Report) : Run m Unit := do
  if s.bundle ≠ "" then
    let directory := Path.directory s.bundle
    if directory ≠ "." then
      run ("failed to create directory for " ++ s.bundle) (host.makeDirectory directory)
    run ("failed to write bundle " ++ s.bundle) (host.writeText s.bundle (archive r.outputs))
  else
    r.outputs.forM fun o => host.writeFile (Path.join [s.directory, o.target, o.path]) o.text
    if s.linksSupport then
      (s.targets.filterMap Target.ofName?).forM fun t => do
        let _ ← host.writeSupport t (Path.join [s.directory, t.name])

/-- The templates that settings ask for: the default ones, with those of a file over them. -/
def templates (host : Host m) (path : String) : Run m Templates := do
  if path = "" then pure Templates.default
  else
    let text ← run ("failed to read template table " ++ path) (host.readText path)
    match Templates.read text with
    | .ok t => pure (Templates.default.merge t)
    | .error f => throw (.context ("template table " ++ path) f)

def translate (host : Host m) (s : Settings) (isCheck : Bool) (path : String) : Run m Unit := do
  let text ← run ("failed to read compilation " ++ path) (host.readText path)
  let c ← MonadExcept.ofExcept (Compilation.load path text)
  let templates ← host.templates s.templates
  let targets ← MonadExcept.ofExcept (Target.ofNames s.targets)
  let report := Report.run { targets, templates, isCheck } c
  host.print (report.text isCheck)
  if !isCheck then host.writeReport s report
  match report.fault? with
  | some f => throw f
  | none => pure ()

def support (host : Host m) (name directory : String) : Run m Unit := do
  let target ← MonadExcept.ofExcept (Target.ofName name)
  if target.supportFiles.isEmpty then
    throw (.hint ("backends with a runtime: " ++ Text.join ", " (Target.supported.map (·.name)))
      (.plain ("backend " ++ name ++ " has no runtime")))
  let paths ← host.writeSupport target directory
  host.print (String.join (paths.map (· ++ "\n")))

def perform (host : Host m) (words : List String) : Run m Unit := do
  match ← MonadExcept.ofExcept (Request.read words) with
  | .describe c => host.print (Command.describe c)
  | .run command flags arguments => do
    let s ← host.settings flags
    match command, arguments with
    | .translate, [path] => host.translate s false path
    | .check, [path] => host.translate s true path
    | .runtime, [name, directory] => host.support name directory
    | _, _ => pure ()

end Host

end Polyglot
