import Polyglot.Emit.Access

/-!
# Calls

The arguments of a call are bound to the parameters of what is called and rendered one by one. A library
member that has a template is not called: the template is filled with the receiver, the arguments and the
type arguments.
-/

namespace Polyglot

namespace Emit

/-! ## Making arrays -/

def braceList (items : List String) : String :=
  if items.isEmpty then "\x7b\x7d" else "\x7b " ++ Text.join ", " items ++ " \x7d"

inductive ArraySource where
  | size (text : String)
  | items (texts : List String)

def newArray (elem : Option Ty) (source : ArraySource) : Emit Rendered := do
  let t ← target
  match t with
  | .cpp =>
    noteFull elem
    let vector := "std::vector<" ++ (← nameOf elem (t.ownership elem true false)) ++ ">"
    match source with
    | .size size => pure (.postfixed ("std::make_shared<" ++ vector ++ ">(" ++ size ++ ")"))
    | .items items =>
      pure (.postfixed ("std::make_shared<" ++ vector ++ ">(" ++ vector ++ "\x7b" ++ Text.join ", " items ++
        "\x7d)"))
  | .rust =>
    noteFull elem
    match source with
    | .size size => do
      pure (.postfixed ("Rc::new(RefCell::new(vec![" ++ (← defaultValue elem) ++ "; (" ++ size ++
        ") as usize]))"))
    | .items items => pure (.postfixed ("Rc::new(RefCell::new(vec![" ++ Text.join ", " items ++ "]))"))
  | .typescript =>
    note elem
    match source with
    | .size size => do
      pure (.postfixed ("new Array<" ++ (← nameOf elem .value) ++ ">(" ++ size ++ ").fill(" ++
        (← defaultValue elem) ++ ")"))
    | .items items => pure (.primary ("[" ++ Text.join ", " items ++ "]"))
  | .csharp | .java =>
    note elem
    let name ←
      match t, elem with
      | .java, some e => do pure (t.openName (← index) .value e)
      | _, _ => nameOf elem .value
    match source with
    | .size size => pure (.postfixed ("new " ++ name ++ "[" ++ size ++ "]"))
    | .items items => pure (.postfixed ("new " ++ name ++ "[] " ++ braceList items))

/-! ## Arguments -/

def passed (passing : Passing) (place : Position) (text : String) : Emit String := do
  match ← target with
  | .cpp => pure text
  | .csharp => pure (if passing = .byValue then text else passing.text ++ " " ++ text)
  | _ => unsupported place "by-reference argument"

def constantOf? (e : Option Expr) : Option Constant :=
  match e with
  | some (.node _ (.literal c)) => some c
  | _ => none

def callSite (place : Position) : Emit CallSite := do pure (.inside (← get).member place)

def bound (method : Symbol) (receiver : Option (Option Expr)) (args : List (Argument (Option Expr)))
    (place : Position) : Emit (List (Bound (Option Expr))) := do
  ofExcept (bind (← read).world.hierarchy staticOf method receiver args (← callSite place))

variable (r : Emitter)

def argumentText (isRaw : Bool) (e : Option Expr) : Emit String := do
  match isRaw, constantOf? e with
  | true, some c => literal c (staticOf e)
  | _, _ => do pure (← r.value e).text

def boundValues (b : Bound (Option Expr)) : Emit (List (Option Expr)) := do
  match b.source with
  | .default i _ => do pure [(← read).world.defaults[i]?]
  | _ => pure b.args

/-- **What is bound to a parameter.** A raw value is not collected into an array. -/
def argument (isRaw : Bool) (b : Bound (Option Expr)) : Emit String := do
  match b.source, b.constant with
  | .caller, some c | .constant, some c => literal c (some b.type)
  | .sentinel, _ => defaultValue (some b.type)
  | _, _ =>
    let values ← boundValues b
    if b.parameter.isVariadic then
      let items ← values.mapM (argumentText r isRaw)
      if !b.packs || isRaw then pure (Text.join ", " items)
      else do pure (← newArray (some b.element) (.items items)).text
    else
      match values with
      | [e] =>
        let text ← argumentText r isRaw e
        if b.passing = .byValue then pure text else passed b.passing (placeOf e) text
      | values =>
        throw (.assertion ("parameter " ++ b.parameter.name ++ " bound to " ++ Text.decimal values.length ++
          " arguments"))

def plainArguments (args : List (Argument (Option Expr))) : Emit (List String) := r.texts (args.map (·.value))

def arguments (method : Symbol) (receiver : Option (Option Expr)) (args : List (Argument (Option Expr)))
    (place : Position) : Emit (List String) := do
  (← bound method receiver args place).mapM (argument r false)

/-! ## Templates -/

def optional (args : List (Argument Expr)) : List (Argument (Option Expr)) :=
  args.map fun a => { value := some a.value, name := a.name, passing := a.passing }

/-- The types that stand for the type parameters of what a node uses: those of its receiver, those of what
it makes, and those that it names. -/
def typeArguments (e : Expr) (s : Symbol) (receiver : Option Expr) : TypeEnv :=
  let ofType := fun (t : Option Ty) => (t.bind Ty.env?).getD []
  let named := match e.form with
    | .call _ args _ => s.typeParameters.zip args
    | _ => []
  let made :=
    if s.kind = .constructor then
      match e.form with
      | .creation t _ _ => ofType (some t)
      | .arrayCreation t _ _ => ofType (some t)
      | _ => ofType e.static
    else []
  named.reverse ++ made ++ ofType (staticOf receiver)

/-- A use of a member that has a template. -/
structure TemplateUse where
  template : Template
  node : Expr
  symbol : Symbol
  /-- What the member is used on; none: the current object, or no object. -/
  receiver : Option Expr
  receiverText : Rendered
  args : List (Argument (Option Expr))
  assigned : Option Rendered := none

namespace TemplateUse

variable (u : TemplateUse)

def valuesFor (name : String) (value : Variable → Emit String) : Emit Template.Values :=
  (u.template.vars.filter (·.name = name)).mapM fun v => do pure (v.token, ← value v)

def thisValues : Emit Template.Values := do
  match u.receiver with
  | some _ => u.valuesFor "this" fun _ => pure (u.receiverText.operand Prec.postfixed)
  | none =>
    if u.symbol.isStatic then pure []
    else
      let this := Text.dropTail (← dialect).dot (← Emit.receiverText .self false)
      u.valuesFor "this" fun _ => pure this

def parameterValues : Emit Template.Values := do
  if u.symbol.parameters.isEmpty then pure []
  else
    let bounds ← bound u.symbol (u.receiver.map some) u.args u.node.place
    let values ← bounds.mapM fun b =>
      u.valuesFor b.parameter.name fun v => argument r (v.modifier = Variable.raw) b
    pure values.flatten

def typeValues : Emit Template.Values := do
  let env := typeArguments u.node u.symbol u.receiver
  let values ← (env.map (·.1)).eraseDups.mapM fun name =>
    match env.get? name with
    | some t => u.valuesFor name fun _ => argumentName t
    | none => pure []
  pure values.flatten

/-- **The template filled in.** Of several values for one variable the last one counts: what is assigned,
`this`, the parameters, the type parameters. -/
def expand : Emit Rendered := do
  let assigned ← match u.assigned with
    | some value => u.valuesFor "value" fun _ => pure (value.operand Prec.assignment)
    | none => pure []
  let this ← u.thisValues
  let parameters ← u.parameterValues r
  let types ← u.typeValues
  let values := assigned ++ this ++ parameters ++ types
  let text ← ofExcept (u.template.render values.reverse)
  pure { text, prec := templatePrecedence text }

end TemplateUse

/-- A receiver as it stands in a template: a text of C++ that is a literal has to be made an object first,
and in Rust it is borrowed. -/
def templateReceiver (e : Expr) (rendered : Rendered) : Emit Rendered := do
  match ← target with
  | .cpp =>
    match e.form with
    | .literal _ =>
      pure (if isText e.static then .postfixed ("std::string(" ++ rendered.text ++ ")") else rendered)
    | _ => pure rendered
  | .rust =>
    let text := borrowed rendered.text
    pure (if text = rendered.text then rendered else { rendered with text, prec := Prec.postfixed })
  | _ => pure rendered

def usedReceiver (template : Template) (receiver : Option Expr) : Emit Rendered := do
  match receiver with
  | some e =>
    if template.uses "this" then do templateReceiver e (← r.value (some e))
    else pure { text := "", prec := Prec.lowest }
  | none => pure { text := "", prec := Prec.lowest }

def expandTemplate (template : Template) (node : Expr) (symbol : Symbol) (receiver : Option Expr)
    (args : List (Argument (Option Expr))) : Emit Rendered := do
  let receiverText ← usedReceiver r template receiver
  TemplateUse.expand r { template, node, symbol, receiver, receiverText, args }

def template? (key : String) : Emit (Option Template) := do
  let s ← read
  pure (s.templates.find? key s.target.name)

/-! ## Invocations -/

def genericCall (name : String) (typeArgs : List Ty) : Emit String := do
  if typeArgs.isEmpty then pure name
  else
    let args ← typeArgs.mapM argumentName
    pure (name ++ (if (← target) = .rust then "::" else "") ++ "<" ++ Text.join ", " args ++ ">")

/-- What a call is made on, when it names one: a type does not count. -/
def calledOn (callee : Expr) : Option Expr :=
  match callee.form with
  | .member target => target.filter fun e => !(e.symbol.any (·.kind = .type))
  | _ => none

/-- **A call.** What is not a method is a delegate. -/
def invocation (e : Expr) (callee : Expr) (typeArgs : List Ty) (args : List (Argument Expr)) :
    Emit Rendered := do
  let args := optional args
  match e.symbol.filter (fun s => s.kind = .method || s.kind = .operator) with
  | none =>
    if e.symbol.isNone then remark e
    let callee ← r.value (some callee)
    delegateCall callee (← plainArguments r args)
  | some s =>
    let receiver := calledOn callee
    match ← template? s.key with
    | some template => expandTemplate r template e s receiver args
    | none =>
      let args ← arguments r s (receiver.map some) args e.place
      let name ← genericCall (← symbolName s) typeArgs
      let lead ←
        if s.isExtension || s.isStatic then do pure ((← typeReference s.container) ++ (← dialect).scope)
        else memberLead r receiver s
      pure (.postfixed (lead ++ name ++ "(" ++ Text.join ", " args ++ ")"))

/-! ## Names -/

def memberRead (e : Expr) (target : Option Expr) (s : Symbol) : Emit Rendered := do
  match ← template? s.key with
  | some template => expandTemplate r template e s target []
  | none =>
    if s.kind = .enumValue then
      pure (.postfixed ((← typeReference s.container) ++ (← dialect).scope ++ (← symbolName s)))
    else
      let lead ← memberLead r target s
      match s.kind with
      | .property => propertyGet lead s
      | .field | .event => fieldGet lead s
      | .method => methodGroup lead s
      | _ => do pure (.postfixed (lead ++ (← symbolName s)))

/-- **A name by itself.** In Rust, locals that are not copied by themselves are cloned. -/
def identifier (e : Expr) : Emit Rendered := do
  match e.symbol with
  | none =>
    remark e
    pure (.primary ((← target).identifier e.mark.name))
  | some s =>
    match s.kind with
    | .local | .parameter =>
      let name ← symbolName s
      if (← target) = .rust && !(← get).mutating && !isCopied s.type then
        pure (.postfixed (name ++ ".clone()"))
      else pure (.primary name)
    | .type => do pure (.primary (← typeReference s.type))
    | _ => memberRead r e none s

def memberAccess (e : Expr) (target : Option Expr) : Emit Rendered := do
  match e.symbol with
  | none =>
    remark e
    let text ← r.operand target Prec.postfixed
    pure (.postfixed (text ++ (← dialect).dot ++ e.mark.name))
  | some s =>
    if s.kind = .type then do pure (.primary (← typeReference s.type))
    else memberRead r e target s

end Emit

end Polyglot
