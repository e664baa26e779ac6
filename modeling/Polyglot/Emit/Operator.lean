import Polyglot.Emit.Call

/-!
# Operators

Operator expressions, and what the targets lack: texts are put together by `format!` in Rust and from
string objects in C++, integer division has to be truncated in TypeScript, references are compared by
identity in Rust.
-/

namespace Polyglot

namespace Emit

variable (r : Emitter)

/-! ## Binary operators -/

/-- A binary operator, where the target has no other way to write it. -/
def plainBinary (e : Expr) (left right : Option Expr) : Emit Rendered := do
  let l ← r.value left
  let rt ← r.value right
  match e.userOperator? with
  | some s =>
    match ← template? s.key with
    | some template => expandTemplate r template e s none [{ value := left }, { value := right }]
    | none => operatorCall s [l, rt]
  | none =>
    if e.mark.op = "??" && !(← dialect).coalesces then unsupported e.place "null-coalescing operator"
    else do pure (.binary (← target) e.mark.op l rt)

/-- An operand of a concatenation in C++, as a string object. -/
def cppTextOperand (e : Option Expr) : Emit Rendered := do
  let x ← r.value e
  match e with
  | some (.node m (.literal _)) =>
    if m.static.any (·.isPrimitive) then pure (.postfixed ("phase::to_string(" ++ x.text ++ ")"))
    else if isText m.static then pure (.postfixed ("std::string(" ++ x.text ++ ")"))
    else pure x
  | e =>
    if (staticOf e).any (·.isPrimitive) then pure (.postfixed ("phase::to_string(" ++ x.text ++ ")"))
    else pure x

def isConcatenation (e : Expr) (left right : Option Expr) : Bool :=
  e.mark.op = "+" && e.userOperator?.isNone && (isText (staticOf left) || isText (staticOf right))

/-- The operands of a chain of concatenations, within a number of levels. -/
def concatenated : Nat → Option Expr → List (Option Expr)
  | 0, e => [e]
  | fuel + 1, e =>
    match e with
    | some (.node m (.binary left right)) =>
      if isConcatenation (.node m (.binary left right)) left right then
        concatenated fuel left ++ concatenated fuel right
      else [e]
    | e => [e]

/-- A text between the quotes of a format string: braces are doubled. -/
def formatText (s : String) : String :=
  String.ofList ((Text.quoteChars s.toList).flatMap fun c =>
    if c = '\x7b' || c = '\x7d' then [c, c] else [c])

/-- Texts and values put together by a format string. The parts of the string are paired with the values
that follow them. -/
def formatted (parts : List (String × Option String)) : Rendered :=
  let pattern := String.join (parts.map fun p => p.1 ++ (if p.2.isSome then "\x7b\x7d" else ""))
  let args := String.join (parts.map fun p => (p.2.map (", " ++ ·)).getD "")
  .postfixed ("format!(\"" ++ pattern ++ "\"" ++ args ++ ")")

/-- A part of a concatenation in Rust: literal text, or a value. -/
def formatPart (e : Option Expr) : Emit (String × Option String) := do
  match constantOf? e with
  | some ⟨.string, text⟩ => pure (formatText text, none)
  | _ =>
    let x ← r.value e
    let isChar := (staticOf e).any (·.primitive? = some .char)
    pure ("", some (if isChar then "phase::char_str(" ++ x.text ++ ")" else x.text))

def isShared (t : Option Ty) : Bool :=
  t.any fun t => t.isDecl .classDecl || t.isDecl .interfaceDecl || t.isArray

def identityTest (op : String) (left right : Option Expr) : Emit Rendered := do
  let l ← r.operand left Prec.unary
  let rt ← r.operand right Prec.unary
  let text := "Rc::ptr_eq(&" ++ borrowed l ++ ", &" ++ borrowed rt ++ ")"
  pure (if op = "!=" then .compound ("!" ++ text) Prec.unary else .postfixed text)

def isIntegral (t : Option Ty) : Bool := t.any fun t => t.primitive?.any (·.isIntegral)

def isFloating (t : Option Ty) : Bool := t.any fun t => t.primitive?.any (·.isFloating)

def binary (e : Expr) (left right : Option Expr) : Emit Rendered := do
  let op := e.mark.op
  match ← target with
  | .cpp =>
    if isConcatenation e left right then do
      let l ← cppTextOperand r left
      let rt ← cppTextOperand r right
      pure (.binary .cpp "+" l rt)
    else plainBinary r e left right
  | .csharp => plainBinary r e left right
  | .java =>
    if op = "??" then do
      let l ← r.value left
      let rt ← r.value right
      require "java.util.Objects"
      pure (.postfixed ("Objects.requireNonNullElse(" ++ l.text ++ ", " ++ rt.text ++ ")"))
    else plainBinary r e left right
  | .rust =>
    if isConcatenation e left right then do
      let operands := concatenated e.depth (some e)
      if operands.any (·.isNone) then crash
      else do pure (formatted (← operands.mapM (formatPart r)))
    else if e.userOperator?.isNone && (op = "==" || op = "!=") && isShared (staticOf left) &&
        isShared (staticOf right) then identityTest r op left right
    else plainBinary r e left right
  | .typescript =>
    let x ← plainBinary r e left right
    if op = "/" && e.userOperator?.isNone && isIntegral (staticOf left) && isIntegral (staticOf right) then
      pure (.postfixed ("Math.trunc(" ++ x.text ++ ")"))
    else pure x

/-! ## Unary operators -/

def plainUnary (e : Expr) (operand : Option Expr) : Emit Rendered := do
  let x ← r.value operand
  match e.userOperator? with
  | some s => operatorCall s [x]
  | none => pure (.unary e.mark.op e.mark.isPostfix x)

/-- **A unary operator.** Rust counts up and down in statements only. -/
def unary (isStatement : Bool) (e : Expr) (operand : Option Expr) : Emit Rendered := do
  let op := e.mark.op
  if (← target) = .rust && e.userOperator?.isNone then
    if op = "++" || op = "--" then
      if isStatement then do
        let x ← mutably (r.value operand)
        pure (.compound (x.text ++ (if op = "++" then " +" else " -") ++ "= 1") Prec.assignment)
      else unsupported e.place "increment inside an expression"
    else if op = "~" then do
      pure (.compound ("!" ++ (← r.operand operand Prec.unary)) Prec.unary)
    else plainUnary r e operand
  else plainUnary r e operand

/-! ## Assignments -/

def assignmentOperator (e : Expr) : String := if e.mark.op = "" then "=" else e.mark.op

/-- What a property that is assigned to belongs to, and the arguments of an index. -/
def assignedOn (left : Expr) : Option Expr × List (Argument Expr) :=
  match left.form with
  | .member target => (target, [])
  | .index target args => (target, args)
  | _ => (none, [])

def assignProperty (e left : Expr) (s : Symbol) (op : String) (value : Rendered) : Emit Rendered := do
  let (receiver, args) := assignedOn left
  match ← template? (s.key ++ ".set") with
  | some template =>
    let value ←
      if op = "=" then pure value
      else do pure (.binary (← target) (assignedOperator op) (← r.value (some left)) value)
    let receiverText ← usedReceiver r template receiver
    let x ← TemplateUse.expand r {
      template, node := e, symbol := s, receiver, receiverText, args := optional args, assigned := some value }
    pure { x with mode := .settled }
  | none =>
    match left.form with
    | .index _ _ =>
      if (← dialect).hasIndexers then do
        let place ← mutably (r.value (some left))
        pure (.compound (place.text ++ " " ++ op ++ " " ++ value.operand Prec.assignment) Prec.assignment)
      else unsupported e.place "indexer assignment"
    | _ =>
      let lead ← mutably (memberLead r receiver s)
      propertySet lead s op value

def plainAssignment (e : Expr) (left right : Option Expr) : Emit Rendered := do
  let value ← r.value right
  let op := assignmentOperator e
  match symbolOf left, left with
  | some s, some l =>
    if s.kind = .event && op ≠ "=" && !(← dialect).hasEvents then unsupported e.place "event subscription"
    else if s.kind = .property then assignProperty r e l s op value
    else assign op value
  | _, _ => assign op value
where
  assign (op : String) (value : Rendered) : Emit Rendered := do
    let place ← mutably (r.value left)
    pure (.compound (place.operand Prec.unary ++ " " ++ op ++ " " ++ value.operand Prec.assignment)
      Prec.assignment)

/-- **An assignment.** In Rust a weak field takes a weak reference, and text is added by a method. -/
def assignment (e : Expr) (left right : Option Expr) : Emit Rendered := do
  let s := symbolOf left
  let op := assignmentOperator e
  let isWeak := s.any (fun s => s.kind = .field && s.isWeak) && op = "="
  let appends := op = "+=" && isText (staticOf left) && !(s.any (·.kind = .property))
  if (← target) = .rust && (isWeak || appends) then
    let value ← r.value right
    let place ← mutably (r.value left)
    if isWeak then
      pure (.compound (place.text ++ " = Rc::downgrade(&" ++ borrowed (value.operand Prec.unary) ++ ")")
        Prec.assignment)
    else pure (.settled (place.operand Prec.postfixed ++ ".push_str(&" ++ value.operand Prec.unary ++ ")"))
  else plainAssignment r e left right

/-! ## Choices, parentheses, indices -/

def conditional (cond yes no : Option Expr) : Emit Rendered := do
  if (← target) = .rust then
    let c ← r.value cond
    let y ← r.value yes
    let n ← r.value no
    pure (.compound ("if " ++ c.text ++ " \x7b " ++ y.text ++ " \x7d else \x7b " ++ n.text ++ " \x7d")
      Prec.assignment)
  else
    let c ← r.operand cond Prec.coalesce
    let y ← r.operand yes Prec.assignment
    let n ← r.operand no Prec.conditional
    pure (.compound (c ++ " ? " ++ y ++ " : " ++ n) Prec.conditional)

/-- **An expression in parentheses**, which are dropped around what never needs them. -/
def parenthesized (inner : Option Expr) : Emit Rendered := do
  let x ← r.value inner
  pure (if x.prec ≥ Prec.primary then x else .primary ("(" ++ x.text ++ ")"))

def plainIndex (e : Expr) (target : Option Expr) (args : List (Argument Expr)) : Emit Rendered := do
  let read : Emit Rendered := do
    let x ← r.operand target Prec.postfixed
    let index ← plainArguments r (optional args)
    pure (.postfixed (x ++ "[" ++ Text.join ", " index ++ "]"))
  match e.symbol.filter (·.kind = .property) with
  | none => read
  | some s =>
    match ← template? s.key with
    | some template => expandTemplate r template e s target (optional args)
    | none => if (← dialect).hasIndexers then read else unsupported e.place "user-defined indexer"

def rustIndex (target index : Option Expr) (elem : Option Ty) : Emit Rendered := do
  let mutating := (← get).mutating
  modify ({ · with mutating := false })
  let i ← r.value index
  modify ({ · with mutating })
  let x ← r.operand target Prec.postfixed
  let i := i.operand Prec.unary ++ " as usize"
  match elem with
  | none => pure (.postfixed (borrowed x ++ ".encode_utf16().nth(" ++ i ++ ").unwrap()"))
  | some elem =>
    let text := borrowed x ++ (if mutating then ".borrow_mut()" else ".borrow()") ++ "[" ++ i ++ "]"
    pure (.postfixed (if mutating || isCopied (some elem) then text else text ++ ".clone()"))

def elementAccess (e : Expr) (target : Option Expr) (args : List (Argument Expr)) : Emit Rendered := do
  match ← Emit.target, staticOf target with
  | .cpp, some (.array _) =>
    let x ← r.operand target Prec.unary
    let index ← plainArguments r (optional args)
    pure (.postfixed ("(*" ++ x ++ ")[" ++ Text.join ", " index ++ "]"))
  | .rust, some (.array elem) =>
    match args with
    | [a] => rustIndex r target (some a.value) (some elem)
    | _ => plainIndex r e target args
  | .rust, some .string =>
    match args with
    | [a] => rustIndex r target (some a.value) none
    | _ => plainIndex r e target args
  | _, _ => plainIndex r e target args

end Emit

end Polyglot
