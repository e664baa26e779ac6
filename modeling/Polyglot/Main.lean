import Polyglot.Command.Run

/-!
# The command line

The host that is the system itself. A command line that ends in a fault prints it, with its hints, where errors
go, and exits with one.
-/

namespace Polyglot

def systemFailure (operation path : String) (e : IO.Error) : String :=
  let cause := match e with
    | .noFileOrDirectory .. => PathFault.missing.text
    | .permissionDenied .. => "permission denied"
    | .inappropriateType _ _ details => details
    | e => toString e
  operation ++ " " ++ path ++ ": " ++ cause

def attempt {α : Type} (operation path : String) (act : IO α) : IO (Except String α) := do
  match ← act.toBaseIO with
  | .ok a => pure (.ok a)
  | .error e => pure (.error (systemFailure operation path e))

def systemHost : Host IO where
  directory := do
    let path ← IO.currentDir
    pure path.toString
  environment := do
    let values ← Settings.Sources.variableNames.mapM fun name => do
      let value ← IO.getEnv name
      pure (name, value)
    pure fun name => (values.lookup name).join
  isPresent path := do
    match ← attempt "stat" path (IO.FS.readFile path) with
    | .ok _ => pure true
    | .error _ => pure false
  readText path := attempt "open" path (IO.FS.readFile path)
  makeDirectory path := attempt "mkdir" path (IO.FS.createDirAll path)
  writeText path text := attempt "open" path (IO.FS.writeFile path text)
  print text := IO.print text

end Polyglot

def main (words : List String) : IO UInt32 := do
  match ← (Polyglot.systemHost.perform words).run with
  | .ok _ => pure 0
  | .error f => do
    IO.eprintln ("Error: " ++ f.text)
    if !f.hints.isEmpty then IO.eprintln ("Hint: " ++ Polyglot.Text.join "\n--\n" f.hints)
    pure 1
