import Polyglot.Emit.Access

/-!
# Statements

A statement writes its text into the current buffer. Blocks end without a line break, so that another clause
can follow; the line is ended once, behind the whole statement.

Targets without a construct spell it with others: Rust writes counting loops as `while`, C++ and TypeScript
write several handlers as one that tests what it caught.
-/

namespace Polyglot

namespace Emit

variable (r : Emitter)

/-! ## Values -/

def exprStatement (value : Option Expr) : Emit Unit := do
  write ((← Emitter.present r.action value).text ++ ";")

def declaredLocal (s : Stmt) (type : Option Ty) : Emit (String × Option Ty) := do
  match s.mark.declares with
  | some symbol => do pure (← symbolName symbol, type.or symbol.type)
  | none => do pure (← fitted s.mark.name, type)

/-- The declaration of a variable, up to its value. -/
def localHead (name : String) (type : Option Ty) : Emit String := do
  match ← target, type with
  | .cpp, none => pure ("auto " ++ name)
  | .cpp, some _ => do pure ((← declaredTypeName type) ++ " " ++ name)
  | .csharp, none | .java, none => pure ("var " ++ name)
  | .csharp, some _ | .java, some _ => do pure ((← typeName type) ++ " " ++ name)
  | .rust, none => pure ("let mut " ++ name)
  | .rust, some _ => do pure ("let mut " ++ name ++ ": " ++ (← declaredTypeName type))
  | .typescript, none => pure ("let " ++ name)
  | .typescript, some _ => do pure ("let " ++ name ++ ": " ++ (← typeName type))

def localDeclaration (s : Stmt) (type : Option Ty) (value : Option Expr) : Emit Unit := do
  let (name, type) ← declaredLocal s type
  let head ← localHead name type
  match value with
  | none => write (head ++ ";")
  | some _ => do write (head ++ " = " ++ (← r.value value).text ++ ";")

def wordWith (word alone : String) (value : Option Expr) : Emit Unit := do
  match value with
  | none => write alone
  | some _ => do write (word ++ " " ++ (← r.value value).text ++ ";")

/-! ## Choices -/

def condition (e : Option Expr) : Emit String := do
  let x ← r.value e
  pure (if (← dialect).bareConditions then x.text else "(" ++ x.text ++ ")")

mutual

def elseClause : Option Stmt → Emit Unit
  | none => pure ()
  | some s => elseStmt s

def elseStmt : Stmt → Emit Unit
  | .node mark form => elseForm mark form

/-- The clause for a statement behind `else`: another choice goes on in the same chain. -/
def elseForm (mark : Mark) : StmtForm → Emit Unit
  | .ifElse cond yes no => do
    continueBlock ("else if " ++ (← condition r cond))
    r.body yes
    closeBlock
    elseClause no
  | form => do
    continueBlock "else"
    r.body (some (.node mark form))
    closeBlock

end

def ifElse (cond : Option Expr) (yes no : Option Stmt) : Emit Unit := do
  openBlock ("if " ++ (← condition r cond))
  r.body yes
  closeBlock
  elseClause r no

/-! ## Loops -/

def loop (head : String) (body : Option Stmt) : Emit Unit := do
  openBlock head
  r.body body
  closeBlock

def inlineStatement (s : Stmt) : Emit String := do
  match s.form with
  | .expr none => crash
  | .expr value => do pure (← r.value value).text
  | _ => do pure (Text.dropTail ";" (Text.trim (← captureInline (r.stmt s))))

/-- An expression behind the body, in the head of a loop. -/
def inlineExpression (e : Option Expr) : Emit String := do
  match e with
  | none => crash
  | some _ => do pure (← r.value e).text

def plainFor (init : List Stmt) (cond : Option Expr) (post : List (Option Expr)) (body : Option Stmt) :
    Emit Unit := do
  let first := Text.join ", " (← init.mapM (inlineStatement r))
  let test ←
    match cond with
    | none => pure ""
    | some _ => do pure (" " ++ (← r.value cond).text)
  let after := Text.join ", " (← post.mapM (inlineExpression r))
  let after := if after = "" then "" else " " ++ after
  loop r ("for (" ++ first ++ ";" ++ test ++ ";" ++ after ++ ")") body

/-- An expression behind the body of a loop, as a statement of its own. -/
def stepStatement (e : Option Expr) : Emit Unit := do
  match e with
  | none => crash
  | some _ =>
    exprStatement r e
    endLine

/-- A counting loop in Rust: a `while` loop in a block of its own. A `continue` would jump over what comes
behind the body. -/
def rustFor (s : Stmt) (init : List Stmt) (cond : Option Expr) (post : List (Option Expr))
    (body : Option Stmt) : Emit Unit := do
  if body.any (fun b => (Node.stmt b).continues) then unsupported s.place "continue inside a for loop"
  else
    openBlock ""
    r.stmts init
    let test ←
      match cond with
      | none => pure "true"
      | some _ => condition r cond
    openBlock ("while " ++ test)
    r.body body
    post.forM (stepStatement r)
    closeBlock
    endLine
    closeBlock

def forLoop (s : Stmt) (init : List Stmt) (cond : Option Expr) (post : List (Option Expr))
    (body : Option Stmt) : Emit Unit := do
  if (← target) = .rust then rustFor r s init cond post body else plainFor r init cond post body

/-- The head of a loop over a collection, in targets that name the variable's type. -/
def foreachHead (name type collection : String) : Emit String := do
  match ← target with
  | .cpp => pure ("for (" ++ (if type = "" then "auto" else type) ++ " " ++ name ++ " : *" ++ collection ++ ")")
  | .java => pure ("for (" ++ type ++ " " ++ name ++ " : " ++ collection ++ ")")
  | .typescript => pure ("for (const " ++ name ++ " of " ++ collection ++ ")")
  | _ => pure ("foreach (" ++ type ++ " " ++ name ++ " in " ++ collection ++ ")")

/-- **A loop over a collection.** In Rust the elements are cloned, and texts yield their units. -/
def foreachLoop (s : Stmt) (type : Option Ty) (collection : Option Expr) (body : Option Stmt) :
    Emit Unit := do
  let (name, type) ← declaredLocal s type
  let x ← r.operand collection Prec.postfixed
  if (← target) = .rust then
    let elements := if isText (staticOf collection) then ".encode_utf16()" else ".borrow().iter().cloned()"
    loop r ("for " ++ name ++ " in " ++ borrowed x ++ elements) body
  else
    let typeText ←
      match type with
      | none => pure ""
      | some _ => declaredTypeName type
    loop r (← foreachHead name typeText x) body

/-! ## Exceptions -/

def rethrow (s : Stmt) : Emit Unit := do
  match (← dialect).rethrow, (← get).handlers with
  | some word, _ => write word
  | none, name :: _ => write ("throw " ++ name ++ ";")
  | none, [] => unsupported s.place "rethrow outside of a catch clause"

/-- **An exception is thrown**; without a value, the caught one. -/
def throws (s : Stmt) (value : Option Expr) : Emit Unit := do
  match ← target, value with
  | .rust, none => unsupported s.place "rethrow"
  | _, none => rethrow s
  | .rust, some _ => do write ("phase::throw(" ++ (← r.value value).text ++ ");")
  | .cpp, some _ => do write ("throw std::shared_ptr<phase::Object>(" ++ (← r.value value).text ++ ");")
  | _, some _ => do write ("throw " ++ (← r.value value).text ++ ";")

/-- The variable of a handler: its own, or a new one. -/
def handlerName (h : Handler Stmt) : Emit String :=
  if h.name = "" then temporary "e" else fitted h.name

def handlerBody (name : String) (h : Handler Stmt) : Emit Unit := inHandler name (r.body h.body)

def exceptionType : Ty := .named { kind := .classDecl, space := "System", name := "Exception" }

def csharpHandler (h : Handler Stmt) : Emit Unit := do
  let head ←
    match h.type with
    | none => pure "catch"
    | some _ =>
      let name := Target.identifier .csharp h.name
      let lead ← typeName h.type
      pure ("catch (" ++ (if h.name = "" then lead else lead ++ " " ++ name) ++ ")")
  continueBlock head
  handlerBody r h.name h
  closeBlock

def javaHandler (h : Handler Stmt) : Emit Unit := do
  let name ← handlerName h
  continueBlock ("catch (" ++ (← typeName (h.type.or (some exceptionType))) ++ " " ++ name ++ ")")
  handlerBody r name h
  closeBlock

def chainClause (isFirst : Bool) (head : String) : Emit Unit :=
  if isFirst then openBlock head else continueBlock ("else " ++ head)

/-- The last clause of a chain of tests, or no clause where there is no chain. -/
def lastClause (isFirst : Bool) (x : Emit Unit) : Emit Unit :=
  if isFirst then x
  else do
    continueBlock "else"
    x
    closeBlock
    endLine

/-- The handlers of C++, as tests of what was caught. -/
def cppHandlers (caught : String) : Bool → List (Handler Stmt) → Emit Unit
  | _, [] => lastClause false (line "throw;")
  | isFirst, h :: rest =>
    match h.type with
    | none => lastClause isFirst (handlerBody r caught h)
    | some _ => do
      noteFull h.type
      let name ← handlerName h
      chainClause isFirst ("if (auto " ++ name ++ " = std::dynamic_pointer_cast<" ++ (← nameOf h.type .value) ++
        ">(" ++ caught ++ "))")
      handlerBody r name h
      closeBlock
      cppHandlers caught false rest

/-- The body of a handler in TypeScript. A handler with a name of its own gets what was caught under it. -/
def typescriptBody (caught : String) (h : Handler Stmt) : Emit Unit := do
  if h.name = "" then handlerBody r caught h
  else
    let name ← fitted h.name
    if name ≠ caught then line ("const " ++ name ++ " = " ++ caught ++ ";")
    handlerBody r name h

/-- The handlers of TypeScript, as tests of what was caught. What no handler takes is thrown again. -/
def typescriptHandlers (caught : String) : Bool → List (Handler Stmt) → Emit Unit
  | true, [] => pure ()
  | false, [] => lastClause false (line ("throw " ++ caught ++ ";"))
  | isFirst, h :: rest =>
    if h.type.all (fun t => t.definitionKey = exceptionType.definitionKey) then
      lastClause isFirst (typescriptBody r caught h)
    else do
      chainClause isFirst ("if (" ++ caught ++ " instanceof " ++ (← typeReference h.type) ++ ")")
      typescriptBody r caught h
      closeBlock
      typescriptHandlers caught false rest

/-- The handler around the tests of TypeScript. The only handler may name what is caught. -/
def typescriptHandler (handlers : List (Handler Stmt)) : Emit Unit := do
  if handlers.isEmpty then pure ()
  else
    let minted ← temporary "e"
    let caught ←
      match handlers with
      | [h] => if h.name = "" then pure minted else fitted h.name
      | _ => pure minted
    continueBlock ("catch (" ++ caught ++ ")")
    typescriptHandlers r caught true handlers
    closeBlock

def finalClause (finalizer : Option Stmt) : Emit Unit := do
  match finalizer with
  | none => pure ()
  | some _ =>
    continueBlock "finally"
    r.body finalizer
    closeBlock

def tryCatch (s : Stmt) (body : Option Stmt) (handlers : List (Handler Stmt)) (finalizer : Option Stmt) :
    Emit Unit := do
  let t ← target
  if t = .rust then unsupported s.place "try statement"
  else if t = .cpp && finalizer.isSome then unsupported s.place "finally clause"
  else
    loop r "try" body
    match t with
    | .cpp =>
      let caught ← temporary "e"
      continueBlock ("catch (const std::shared_ptr<phase::Object>& " ++ caught ++ ")")
      cppHandlers r caught true handlers
      closeBlock
    | .typescript => typescriptHandler r handlers
    | .csharp => handlers.forM (csharpHandler r)
    | _ => handlers.forM (javaHandler r)
    finalClause r finalizer

/-! ## All statements -/

/-- A statement, before its line is ended. -/
def openStatement (s : Stmt) : Emit Unit :=
  match s.form with
  | .block ss => r.block ss
  | .expr value => exprStatement r value
  | .declaration type value => localDeclaration r s type value
  | .returns value => wordWith r "return" "return;" value
  | .ifElse cond yes no => ifElse r cond yes no
  | .whileLoop cond body => do loop r ("while " ++ (← condition r cond)) body
  | .forLoop init cond post body => forLoop r s init cond post body
  | .foreach type collection body => foreachLoop r s type collection body
  | .breakLoop => write "break;"
  | .continueLoop => write "continue;"
  | .throws value => throws r s value
  | .tryCatch body handlers finalizer => tryCatch r s body handlers finalizer
  | .yields value => do
    if (← target) = .csharp then wordWith r "yield return" "yield break;" value
    else unsupported s.place "yield"

def statement (s : Stmt) : Emit Unit := do
  openStatement r s
  endLine

end Emit

end Polyglot
