import Polyglot.Emit.Emitter

/-!
# Lambdas

A body that is an expression stays one where the target allows it. A block is written in a buffer of its own
and goes on in the line of the lambda.
-/

namespace Polyglot

namespace Emit

variable (r : Emitter)

def lambdaParameter (p : LambdaParameter) : Emit (String × Option String) := do
  let name ← fitted p.name
  match p.type with
  | none => pure (name, none)
  | some _ => do pure (name, some (← usedTypeName p.type))

def lambdaBody (body : Option LambdaBody) : Emit (String × Bool) := do
  match body with
  | none => pure ("\x7b\x7d", true)
  | some (.value e) => do pure (← r.operand (some e) Prec.assignment, false)
  | some (.block s) =>
    match s.form with
    | .block ss => do pure (Text.dropTrailing '\n' (← captureInline (r.block ss)), true)
    | _ => throw (.assertion (s.place.text ++ ": " ++ s.kind.text ++ " used as an expression"))

def typedBefore (unknown : String) (p : String × Option String) : String :=
  match p with
  | (name, some type) => type ++ " " ++ name
  | (name, none) => unknown ++ name

def typedBehind (p : String × Option String) : String :=
  match p with
  | (name, some type) => name ++ ": " ++ type
  | (name, none) => name

def lambda (parameters : List LambdaParameter) (body : Option LambdaBody) : Emit Rendered := do
  let ps ← parameters.mapM lambdaParameter
  let (text, isBlock) ← lambdaBody r body
  let list := fun (f : String × Option String → String) => Text.join ", " (ps.map f)
  let arrow := fun (s : String) => ({ text := s, mode := .settled, prec := Prec.assignment } : Rendered)
  match ← target with
  | .cpp =>
    let text := if isBlock then text else "\x7b return " ++ text ++ "; \x7d"
    pure (.settled ("[&](" ++ list (typedBefore "auto ") ++ ") " ++ text))
  | .csharp => pure (arrow ("(" ++ list (typedBefore "") ++ ") => " ++ text))
  | .java =>
    let head := match ps with
      | [p] => p.1
      | ps => "(" ++ Text.join ", " (ps.map (·.1)) ++ ")"
    pure (arrow (head ++ " -> " ++ text))
  | .rust => pure (.settled ("Rc::new(move |" ++ list typedBehind ++ "| " ++ text ++ ")"))
  | .typescript =>
    let text := if !isBlock && Text.hasLead "\x7b" text then "(" ++ text ++ ")" else text
    pure (arrow ("(" ++ list typedBehind ++ ") => " ++ text))

end Emit

end Polyglot
