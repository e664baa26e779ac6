import Polyglot.Declare.Cpp
import Polyglot.Declare.CSharp
import Polyglot.Declare.Java
import Polyglot.Declare.Rust
import Polyglot.Declare.TypeScript
import Polyglot.Template.Defaults

/-!
# Reports

A compilation is emitted in units: one declared type for one target. Units do not know of each other. A unit is emitted whole or
not at all: when one of its files fails, none is kept.
-/

namespace Polyglot

inductive Status where
  | ok
  /-- Emitted, though some names were not resolved. -/
  | fallback
  | failed
deriving Repr, DecidableEq

def Status.text : Status → String
  | ok => "ok"
  | fallback => "fallback"
  | failed => "failed"

structure Output where
  target : String
  path : String
  text : String
deriving Repr, DecidableEq

/-- What became of a unit. -/
structure Emission where
  target : Target
  type : String
  status : Status
  outputs : List Output := []
  diagnostics : List Diagnostic := []
  failure : Option Fault := none

structure Report where
  units : List Emission

structure Options where
  targets : List Target
  templates : Templates := Templates.default
  /-- Only look for faults: keep no texts. -/
  isCheck : Bool := false
  /-- Give up before the first unit. -/
  isCancelled : Bool := false

/-! ## Units -/

def Emit.artifactFile : Emit Unit := do
  let scene ← read
  let r := scene.emitter
  match scene.target with
  | .cpp => cppFile r
  | .csharp => csharpFile r
  | .java => javaFile r
  | .rust => rustFile r
  | .typescript => typescriptFile r

/-- A fault of a unit: something that was missing is a broken promise of the target's side. -/
def Fault.ofUnit (target : Target) (type : String) : Fault → Fault
  | .crash t =>
    .assertion (target.name ++ " renderer panicked on " ++ type ++ ": " ++ t.getD "runtime error")
  | f => f

/-- The files of a unit, one after the other, with the remarks made on the way. The first fault ends it. -/
def emitFiles (scene : Artifact → Scene) : List Artifact → List Output × List Diagnostic × Option Fault
  | [] => ([], [], none)
  | a :: rest =>
    let s := scene a
    match Emit.artifactFile.runOn s with
    | (.error f, _) => ([], [], some f)
    | (.ok _, sheet) =>
      let (outputs, remarks, fault) := emitFiles scene rest
      ({ target := s.target.name, path := a.path, text := sheet.writer.text } :: outputs,
        sheet.remarks ++ remarks, fault)

/-- **A unit**: one declared type for one target. -/
def emitUnit (options : Options) (c : Compilation) (target : Target) (d : TypeDecl) : Emission :=
  let type := d.type.key
  if options.isCancelled then
    { target, type, status := .failed, failure := some (.plain "context canceled") }
  else
    let scene := fun a : Artifact =>
      ({ target, world := c.world, templates := options.templates, decl := d, artifact := a } : Scene)
    match emitFiles scene (target.artifacts c.world.index d.head) with
    | (outputs, diagnostics, none) =>
      { target, type, diagnostics
        status := if diagnostics.isEmpty then .ok else .fallback
        outputs := if options.isCheck then [] else outputs }
    | (_, remarks, some f) =>
      let f := f.ofUnit target type
      { target, type, status := .failed, failure := some f
        diagnostics := remarks ++ [Diagnostic.ofFault f d.place] }

/-! ## Reports -/

def Compilation.sortedTypes (c : Compilation) : List TypeDecl :=
  c.types.mergeSort fun a b => !Text.before b.type.key a.type.key

def Target.sorted (targets : List Target) : List Target :=
  targets.mergeSort fun a b => !Text.before b.name a.name

def Target.ofNames (names : List String) : Except Fault (List Target) :=
  if names.isEmpty then .ok Target.all else names.mapM Target.ofName

namespace Report

/-- **Every type of a compilation for every target.** -/
def run (options : Options) (c : Compilation) : Report where
  units := (Target.sorted options.targets).flatMap fun t => c.sortedTypes.map (emitUnit options c t)

def count (r : Report) (s : Status) : Nat := r.units.countP (·.status = s)

def outputs (r : Report) : List Output := r.units.flatMap (·.outputs)

def failures (r : Report) : List Fault :=
  r.units.filterMap fun u => u.failure.map fun f => .context (u.target.name ++ " " ++ u.type) f

end Report

/-! ## Archives -/

/-- A text with its last line ended; an empty one has no line. -/
def endedText (s : String) : String := if s = "" || endsLine s then s else s ++ "\n"

/-- **Files packed into one text**: each behind a line with its name. -/
def archive (outputs : List Output) : String :=
  String.join (outputs.map fun o => "-- " ++ o.target ++ "/" ++ o.path ++ " --\n" ++ endedText o.text)

end Polyglot
