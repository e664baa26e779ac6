import Polyglot.Emit.Call

/-!
# Making objects

An object is made by its constructor. What an initializer then sets or adds is written as it is in C#;
elsewhere the object is held in a temporary, which is filled by statements inside a function that is called
on the spot.
-/

namespace Polyglot

namespace Emit

/-- A type name in an expression of Rust: its arguments stand behind a path separator. -/
def turbofish (name : String) : String :=
  match Text.cutFirst? '<' name with
  | some (head, args) => head ++ "::<" ++ args
  | none => name

/-- **A new object** of a type; the constructor is missing where it was not found. -/
def newObject (t : Ty) (constructor : Option Symbol) (args : List String) : Emit Rendered := do
  let name ← fullName (some t)
  let args := "(" ++ Text.join ", " args ++ ")"
  match ← target with
  | .cpp =>
    pure (.postfixed (if t.isValueType then name ++ args else "std::make_shared<" ++ name ++ ">" ++ args))
  | .rust =>
    let method ←
      match constructor.filter (·.kind = .constructor) with
      | some s => symbolName s
      | none => pure "new"
    pure (.postfixed (turbofish name ++ "::" ++ method ++ args))
  | _ => pure (.postfixed ("new " ++ name ++ args))

variable (r : Emitter)

/-! ## Initializers -/

def elementValues (e : Expr) : List (Option Expr) :=
  match e.form with
  | .element values => values
  | _ => [some e]

def addCall (temporary lead : String) (e : Expr) : Emit String := do
  let args : List (Argument (Option Expr)) := (elementValues e).map fun value => { value }
  match e.symbol with
  | none =>
    remark e
    let args ← plainArguments r args
    pure (lead ++ (← fitted "Add") ++ "(" ++ Text.join ", " args ++ ")")
  | some s =>
    let receiver := Expr.node { place := e.place, name := temporary } .identifier
    match ← template? s.key with
    | some template =>
      let used ← TemplateUse.expand r {
        template, node := e, symbol := s, receiver := some receiver, receiverText := .primary temporary, args }
      pure used.text
    | none =>
      let args ← arguments r s (some (some receiver)) args e.place
      pure (lead ++ (← symbolName s) ++ "(" ++ Text.join ", " args ++ ")")

def initializerStatement (temporary lead : String) (e : Expr) : Emit String := do
  match e.form with
  | .assign left right =>
    let value ← r.value right
    match symbolOf left, left with
    | none, none => crash
    | none, some left =>
      remark left
      pure (lead ++ (← target).identifier left.mark.name ++ " = " ++ value.text ++ ";")
    | some s, _ =>
      if s.kind = .property then do pure ((← propertySet lead s "=" value).text ++ ";")
      else do pure (lead ++ (← symbolName s) ++ " = " ++ value.text ++ ";")
  | _ => do pure ((← addCall r temporary lead e) ++ ";")

def initializerStatements (temporary : String) (elements : List Expr) : Emit (List String) := do
  let lead ← receiverText (.value none (.primary temporary)) false
  elements.mapM (initializerStatement r temporary lead)

/-- Statements around a temporary, inside a function that is called on the spot. -/
def inPlace (opening declaration : String) (statements : List String) (result closing : String) :
    Emit String :=
  captureInline do
    line opening
    indent
    line declaration
    lines statements
    line result
    outdent
    write closing

def csharpElement (e : Expr) : Emit String := do
  match e.form with
  | .assign left right =>
    let value ← r.value right
    match symbolOf left, left with
    | some s, _ => do pure ((← symbolName s) ++ " = " ++ value.text)
    | none, some left => pure (left.mark.name ++ " = " ++ value.text)
    | none, none => crash
  | .element values =>
    match ← r.texts values with
    | [text] => pure text
    | texts => pure (braceList texts)
  | _ => do pure (← r.value (some e)).text

def initialized (e : Expr) (t : Ty) (elements : List Expr) (created : Rendered) : Emit Rendered := do
  match ← target with
  | .csharp => do
    pure (.postfixed (created.text ++ " " ++ braceList (← elements.mapM (csharpElement r))))
  | .java =>
    let tmp ← temporary "init"
    let statements ← initializerStatements r tmp elements
    require "java.util.function.Supplier"
    let name ← typeName (some t)
    let text ← inPlace ("((Supplier<" ++ name ++ ">) () -> \x7b") (name ++ " " ++ tmp ++ " = " ++ created.text ++ ";")
      statements ("return " ++ tmp ++ ";") "\x7d).get()"
    pure (.postfixed text)
  | .typescript =>
    let tmp ← temporary "init"
    let statements ← initializerStatements r tmp elements
    let text ← inPlace "(() => \x7b" ("const " ++ tmp ++ " = " ++ created.text ++ ";") statements
      ("return " ++ tmp ++ ";") "\x7d)()"
    pure (.postfixed text)
  | .cpp =>
    if t.isValueType then unsupported e.place "object initializer of a value type"
    else
      let tmp ← temporary "init"
      let statements ← initializerStatements r tmp elements
      let text ← inPlace "[&]() \x7b" ("auto " ++ tmp ++ " = " ++ created.text ++ ";") statements
        ("return " ++ tmp ++ ";") "\x7d()"
      pure (.postfixed text)
  | .rust =>
    if t.isValueType then unsupported e.place "initializer of a value type"
    else
      let tmp ← temporary "init"
      let statements ← initializerStatements r tmp elements
      let text ← inPlace "\x7b" ("let " ++ tmp ++ " = " ++ created.text ++ ";") statements tmp "\x7d"
      pure (.primary text)

/-! ## Expressions -/

def created (e : Expr) (t : Ty) (args : List (Argument Expr)) : Emit Rendered := do
  let args := optional args
  match e.symbol with
  | none =>
    remark e
    newObject t none (← plainArguments r args)
  | some s =>
    match ← template? s.key with
    | some template => expandTemplate r template e s none args
    | none => do newObject t (some s) (← arguments r s none args e.place)

def creation (e : Expr) (t : Ty) (args : List (Argument Expr)) (elements : List Expr) : Emit Rendered := do
  let object ← created r e t args
  if elements.isEmpty then pure object else initialized r e t elements object

/-- **The creation of an array**, from its first size or from its elements. -/
def arrayCreation (t : Ty) (sizes elements : List (Option Expr)) : Emit Rendered := do
  let elem := match t with
    | .array e => e
    | t => t
  match sizes, elements with
  | size :: _, [] => do newArray (some elem) (.size (← r.value size).text)
  | _, elements => do newArray (some elem) (.items (← r.texts elements))

def anonymousMembers (elements : List Expr) : Emit (List (String × String)) :=
  elements.mapM fun e =>
    match e.form with
    | .assign (some left) right => do pure (left.mark.name, ← r.operand right Prec.assignment)
    | _ => unsupported e.place "anonymous object member"

def anonymousObject (e : Expr) (elements : List Expr) : Emit Rendered := do
  match ← target with
  | .csharp =>
    let members ← anonymousMembers r elements
    pure (.postfixed ("new " ++ braceList (members.map fun m => m.1 ++ " = " ++ m.2)))
  | .java =>
    let members ← anonymousMembers r elements
    require "java.util.Map"
    let parts := members.flatMap fun m => ["\"" ++ m.1 ++ "\"", m.2]
    pure (.postfixed ("Map.of(" ++ Text.join ", " parts ++ ")"))
  | .typescript =>
    let members ← anonymousMembers r elements
    pure (.primary (braceList (members.map fun m => Text.lowerFirst m.1 ++ ": " ++ m.2)))
  | .cpp | .rust => unsupported e.place "anonymous object"

end Emit

end Polyglot
