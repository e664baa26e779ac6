import Polyglot.Target.TypeName

/-!
# Paths of artifacts

A type is emitted into one file, or, in C++, into a header and an implementation. The path of a file
follows the namespace and the name of the type. `relativeModule` is the way from one file to another.
-/

namespace Polyglot

inductive ArtifactKind where
  | source
  | declaration
  | definition
deriving Repr, DecidableEq, Inhabited

def ArtifactKind.text : ArtifactKind → String
  | source => "source"
  | declaration => "declaration"
  | definition => "definition"

structure Artifact where
  kind : ArtifactKind
  path : String
deriving Repr, DecidableEq, Inhabited

namespace Path

/-- The parts of a path without empty ones and dots; two dots take back the part before. `done` holds the
parts so far, the last one first. -/
def cleanParts (isRooted : Bool) : (done : List String) → List String → List String
  | done, [] => done.reverse
  | done, part :: rest =>
    if part = "" || part = "." then cleanParts isRooted done rest
    else if part = ".." then
      match done with
      | [] => cleanParts isRooted (if isRooted then [] else [".."]) rest
      | last :: before =>
        cleanParts isRooted (if last = ".." then ".." :: done else before) rest
    else cleanParts isRooted (part :: done) rest

/-- **The shortest path** to the same file. -/
def clean (path : String) : String :=
  let isRooted := Text.hasLead "/" path
  let parts := cleanParts isRooted [] (Text.split '/' path)
  if isRooted then "/" ++ Text.join "/" parts
  else if parts.isEmpty then "." else Text.join "/" parts

def join (parts : List String) : String :=
  let parts := parts.dropWhile (· = "")
  if parts.isEmpty then "" else clean (Text.join "/" parts)

def directory (path : String) : String :=
  match Text.cutLast? '/' path with
  | some (dir, _) => clean (dir ++ "/")
  | none => "."

/-- The parts of two paths that differ, after what they begin with alike. -/
def dropShared : List String → List String → List String × List String
  | a :: as, b :: bs => if a = b then dropShared as bs else (a :: as, b :: bs)
  | as, bs => (as, bs)

/-- **The way from a file to a module**: through the directories above the file, then down. -/
def relativeModule (origin target : String) : String :=
  let directory := Path.directory origin
  let own := if directory = "." then [] else Text.split '/' directory
  let parts := Text.split '/' target
  let last := parts.getLast?.getD ""
  let (up, down) := dropShared own parts.dropLast
  (if up.isEmpty then "./" else "") ++ Text.repeated "../" up.length ++ Text.join "/" (down ++ [last])

end Path

namespace Target

def suffix : Target → ArtifactKind → String
  | cpp, .declaration => ".h"
  | cpp, .definition => ".cpp"
  | csharp, .source => ".cs"
  | java, .source => ".java"
  | rust, .source => ".rs"
  | typescript, .source => ".ts"
  | _, _ => ""

def directoryName : Target → String → String
  | java, s => Text.lowerCase s
  | rust, s => Text.snakeCase s
  | _, s => s

def baseFileName : Target → String → String
  | rust, s => Text.snakeCase s
  | _, s => s

def artifactPath (t : Target) (idx : TypeIndex) (h : TypeHead) (kind : ArtifactKind) : String :=
  let space := declaredSpace h
  let directories := if space = "" then [] else (Text.split '.' space).map t.directoryName
  Path.join (directories ++ [t.baseFileName (t.fileName idx h) ++ t.suffix kind])

/-- The files of a type: C++ writes a header, and an implementation for classes and structures that are not
generic. -/
def artifacts (t : Target) (idx : TypeIndex) (h : TypeHead) : List Artifact :=
  let artifact := fun kind => ({ kind, path := t.artifactPath idx h kind } : Artifact)
  match t with
  | cpp =>
    if h.arity = 0 && (h.kind = .classDecl || h.kind = .structDecl) then
      [artifact .declaration, artifact .definition]
    else [artifact .declaration]
  | _ => [artifact .source]

end Target

end Polyglot
