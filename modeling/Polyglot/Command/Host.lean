import Polyglot.Target.Path

/-!
# Hosts

What commands need of the system they run on: files, directories, variables of the environment and a place to
print. A `Host` is these operations in some monad. `Workspace.host` keeps everything in memory, so that a command
is a function from one workspace to the next.
-/

namespace Polyglot

/-- The operations of a system. A failure is told by its wording. -/
structure Host (m : Type → Type) where
  directory : m String
  environment : m (String → Option String)
  isPresent : String → m Bool
  readText : String → m (Except String String)
  /-- Makes a directory and those above it, unless they are there. -/
  makeDirectory : String → m (Except String Unit)
  writeText : (path text : String) → m (Except String Unit)
  print : String → m Unit

/-- The way to a file from the root of a workspace. -/
abbrev Place := List String

inductive PathFault where
  | missing
  | notDirectory
  | isDirectory
deriving Repr, DecidableEq

def PathFault.text : PathFault → String
  | missing => "no such file or directory"
  | notDirectory => "not a directory"
  | isDirectory => "is a directory"

/-- A system in memory. -/
structure Workspace where
  root : String := ""
  files : List (Place × String) := []
  directories : List Place := []
  current : Place := []
  environment : List (String × String) := []
  printed : String := ""
deriving Repr

namespace Workspace

def get? (w : Workspace) (p : Place) : Option String := w.files.lookup p

/-- The root is a directory, and so is every place on the way to a file or directory. -/
def isDirectory (w : Workspace) (p : Place) : Bool :=
  p = [] || (w.directories ++ w.files.map (·.1.dropLast)).any (p.isPrefixOf ·)

def put (w : Workspace) (p : Place) (text : String) : Workspace :=
  if (w.get? p).isSome then { w with files := w.files.map fun f => if f.1 = p then (p, text) else f }
  else { w with files := w.files ++ [(p, text)] }

def follow (w : Workspace) : Place → List String → Except PathFault Place
  | p, [] => .ok p
  | p, part :: rest =>
    if !w.isDirectory p then .error (if (w.get? p).isSome then .notDirectory else .missing)
    else if part = "" || part = "." then w.follow p rest
    else if part = ".." then w.follow p.dropLast rest
    else w.follow (p ++ [part]) rest

def parts (w : Workspace) (path : String) : Option (Place × List String) :=
  match Text.after? (w.root ++ "/") path with
  | some rest => some ([], Text.split '/' rest)
  | none =>
    if path = w.root then some ([], [])
    else if Text.hasLead "/" path then none
    else some (w.current, Text.split '/' path)

def resolve (w : Workspace) (path : String) : Except PathFault Place :=
  match w.parts path with
  | some (start, parts) => if path = "" then .error .missing else w.follow start parts
  | none => .error .missing

/-- The text of the file that a path leads to. A failure names the operation that failed. -/
def readText (w : Workspace) (path : String) : Except String String :=
  let failed := fun (operation : String) (f : PathFault) => operation ++ " " ++ path ++ ": " ++ f.text
  match w.resolve path with
  | .error f => .error (failed "open" f)
  | .ok p =>
    match w.get? p with
    | some text => .ok text
    | none => .error (if w.isDirectory p then failed "read" .isDirectory else failed "open" .missing)

def writeText (w : Workspace) (path text : String) : Except String Workspace :=
  let failed := fun (f : PathFault) => "open " ++ path ++ ": " ++ f.text
  match w.resolve path with
  | .error f => .error (failed f)
  | .ok p => if w.isDirectory p then .error (failed .isDirectory) else .ok (w.put p text)

/-- The first place on the way that is a file, with the path to it as it was written. -/
def obstacle? (w : Workspace) (p : Place) (written : List String) : List String → Option String
  | [] => none
  | part :: rest =>
    let p := if part = "" || part = "." then p else if part = ".." then p.dropLast else p ++ [part]
    let written := written ++ [part]
    if (w.get? p).isSome then some (Text.join "/" written) else obstacle? w p written rest

def makeDirectory (w : Workspace) (path : String) : Except String Workspace :=
  match w.parts path with
  | none => .error ("mkdir " ++ path ++ ": permission denied")
  | some (start, parts) =>
    match obstacle? w start [] parts with
    | some p => .error ("mkdir " ++ p ++ ": " ++ PathFault.notDirectory.text)
    | none =>
      let place := parts.foldl (fun (p : Place) part =>
        if part = "" || part = "." then p else if part = ".." then p.dropLast else p ++ [part]) start
      .ok { w with directories := w.directories ++ [place] }

def step (f : Workspace → Except String Workspace) : StateM Workspace (Except String Unit) := do
  match f (← get) with
  | .ok w => do
    set w
    pure (.ok ())
  | .error e => pure (.error e)

def host : Host (StateM Workspace) where
  directory := do
    let w ← get
    pure (Text.join "/" (w.root :: w.current))
  environment := do
    let w ← get
    pure fun name => w.environment.lookup name
  isPresent path := do
    let w ← get
    pure <| match w.resolve path with
      | .ok p => (w.get? p).isSome || w.isDirectory p
      | .error _ => false
  readText path := do
    let w ← get
    pure (w.readText path)
  makeDirectory path := step (·.makeDirectory path)
  writeText path text := step (·.writeText path text)
  print text := modify fun w => { w with printed := w.printed ++ text }

end Workspace

end Polyglot
