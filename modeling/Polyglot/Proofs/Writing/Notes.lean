import Polyglot.Emit.Knot
import Polyglot.Proofs.Writing.Basic

/-!
# What renders no part of a tree

Names, types, literals and calls whose parts are rendered already note types, names and remarks, and nothing else: they
leave every part of the sheet as it is in which no notes are made (`Noteless`): the writer, the flag of a change, and what is
around the current place.
-/

namespace Polyglot

namespace Emit

variable {σ : Type} {part : Sheet → σ}

variable (u : TemplateUse) (name lead : String) (s : Symbol) (e : Expr) (c : Constant) (t : Option Ty) (own : Ownership)
  (source : Option Ty) (x : Rendered)

/-! ## What only reads -/

@[grind ←] theorem keeps_nameOf : Keeps part (nameOf t own) :=
  keeps_target.bind fun _ => keeps_index.bind fun _ => .pure _

@[grind ←] theorem keeps_symbolName : Keeps part (symbolName s) := keeps_read.bind fun _ => .pure _

@[grind ←] theorem keeps_fitted : Keeps part (fitted name) := keeps_target.bind fun _ => .pure _

@[grind ←] theorem keeps_literal : Keeps part (literal c t) :=
  keeps_target.bind fun _ => .pure _

@[grind ←] theorem keeps_convert : Keeps part (Emitter.convert e x) := by
  unfold Emitter.convert
  grind

@[grind ←] theorem keeps_rustBorrow (isCall : Bool) : Keeps part (rustBorrow t isCall) := by
  unfold rustBorrow
  grind

@[grind ←] theorem keeps_delegateCall (callee : Rendered) (args : List String) : Keeps part (delegateCall callee args) := by
  unfold delegateCall
  grind

@[grind ←] theorem keeps_passed (passing : Passing) (place : Position) (text : String) :
    Keeps part (passed passing place text) := by
  unfold passed
  grind

@[grind ←] theorem keeps_bound (receiver : Option (Option Expr)) (args : List (Argument (Option Expr))) (place : Position) :
    Keeps part (bound s receiver args place) := by
  have site : Keeps part (callSite place) := keeps_get.bind fun _ => .pure _
  exact keeps_read.bind fun _ => site.bind fun _ => keeps_ofExcept _

@[grind ←] theorem keeps_boundValues (b : Bound (Option Expr)) : Keeps part (boundValues b) := by
  unfold boundValues
  grind

@[grind ←] theorem keeps_valuesFor {value : Variable → Emit String} (each : ∀ v, Keeps part (value v)) :
    Keeps part (u.valuesFor name value) :=
  .mapM (fun v => (each v).bind fun _ => .pure _) _

@[grind ←] theorem keeps_templateReceiver : Keeps part (templateReceiver e x) := by
  unfold templateReceiver
  grind

@[grind ←] theorem keeps_template? (key : String) : Keeps part (template? key) := keeps_read.bind fun _ => .pure _

@[grind ←] theorem keeps_base : Keeps part (base e) := by
  unfold base
  grind

@[grind ←] theorem keeps_foreachHead (type collection : String) : Keeps part (foreachHead name type collection) := by
  unfold foreachHead
  grind

@[grind ←] theorem keeps_fieldGet : Keeps part (fieldGet lead s) := by
  unfold fieldGet
  grind

@[grind ←] theorem keeps_methodGroup : Keeps part (methodGroup lead s) := by
  unfold methodGroup
  grind

@[grind ←] theorem keeps_constant : Keeps part (constant e c) := by
  unfold constant
  grind

@[grind ←] theorem keeps_declaredLocal (s : Stmt) (type : Option Ty) : Keeps part (declaredLocal s type) := by
  unfold declaredLocal
  grind

@[grind ←] theorem keeps_propertyGet : Keeps part (propertyGet lead s) := by
  unfold propertyGet
  grind

@[grind ←] theorem keeps_propertySet (op : String) (x : Rendered) : Keeps part (propertySet lead s op x) := by
  unfold propertySet
  grind

variable [Noteless part]

/-! ## Notes and names -/

@[grind ←] theorem keeps_noteAs (full : Bool) (t : Option Ty) : Keeps part (noteAs full t) := by
  cases t with
  | none => exact .pure ()
  | some t => exact .modify fun _ => Noteless.same rfl rfl

@[grind ←] theorem keeps_noteFull : Keeps part (noteFull t) := keeps_noteAs true t

@[grind ←] theorem keeps_note : Keeps part (note t) := keeps_noteAs _ t

@[grind ←] theorem keeps_typeName : Keeps part (typeName t own) :=
  (keeps_note t).bind fun _ => keeps_nameOf t own

@[grind ←] theorem keeps_fullName : Keeps part (fullName t) :=
  (keeps_noteFull t).bind fun _ => keeps_nameOf t .value

@[grind ←] theorem keeps_declaredTypeName (isWeak : Bool) : Keeps part (declaredTypeName t isWeak) :=
  keeps_target.bind fun _ => keeps_typeName t _

@[grind ←] theorem keeps_usedTypeName : Keeps part (usedTypeName t) :=
  keeps_target.bind fun _ => keeps_typeName t _

@[grind ←] theorem keeps_argumentName (t : Ty) : Keeps part (argumentName t) :=
  (keeps_noteFull t).bind fun _ => keeps_target.bind fun _ => keeps_index.bind fun _ => .pure _

@[grind ←] theorem keeps_require (line : String) : Keeps part (require line) :=
  .modify fun _ => Noteless.same rfl rfl

@[grind ←] theorem keeps_remark : Keeps part (remark e) := .modify fun _ => Noteless.same rfl rfl

@[grind ←] theorem keeps_temporary (hint : String) : Keeps part (temporary hint) :=
  fun _ _ => Noteless.same rfl rfl

@[grind ←] theorem keeps_typeReference : Keeps part (typeReference t) := by
  unfold typeReference
  grind

@[grind ←] theorem keeps_cppDefault : Keeps part (cppDefault t) := by
  unfold cppDefault
  grind

@[grind ←] theorem keeps_csharpDefault : Keeps part (csharpDefault t) := by
  unfold csharpDefault
  grind

@[grind ←] theorem keeps_defaultValue : Keeps part (defaultValue t) := by
  unfold defaultValue
  grind

/-! ## Members -/

@[grind ←] theorem keeps_cppBase : Keeps part cppBase := by
  unfold cppBase
  grind

/-- The flag of a change is asked for here, and not turned. -/
@[grind ←] theorem keeps_receiverText (receiver : Receiver) (isCall : Bool) : Keeps part (receiverText receiver isCall) := by
  unfold receiverText
  grind

@[grind ←] theorem keeps_operatorCall (operands : List Rendered) : Keeps part (operatorCall s operands) := by
  unfold operatorCall
  grind

/-! ## Calls and templates -/

@[grind ←] theorem keeps_newArray (elem : Option Ty) (source : ArraySource) : Keeps part (newArray elem source) := by
  refine keeps_target.bind fun t => ?_
  cases source <;> cases t <;> grind

@[grind ←] theorem keeps_thisValues : Keeps part u.thisValues := by
  unfold TemplateUse.thisValues
  grind

@[grind ←] theorem keeps_typeValues : Keeps part u.typeValues := by
  unfold TemplateUse.typeValues
  grind

@[grind ←] theorem keeps_genericCall (ts : List Ty) : Keeps part (genericCall name ts) := by
  unfold genericCall
  grind

@[grind ←] theorem keeps_newObject (t : Ty) (s : Option Symbol) (args : List String) : Keeps part (newObject t s args) := by
  unfold newObject
  grind

/-! ## Types in expressions -/

@[grind ←] theorem keeps_plainCast : Keeps part (plainCast t x) :=
  (keeps_note t).bind fun _ => keeps_target.bind fun _ => keeps_index.bind fun _ => .pure _

@[grind ←] theorem keeps_cppCast : Keeps part (cppCast t source x) := by
  unfold cppCast
  grind

@[grind ←] theorem keeps_rustCast : Keeps part (rustCast e t source x) := by
  refine (keeps_noteFull t).bind fun _ => ?_
  cases t with
  | none => exact keeps_crash
  | some t =>
    refine keeps_target.bind fun _ => ?_
    cases source with
    | none => grind
    | some s =>
      split
      · grind
      · split
        · exact keeps_unsupported _ _
        · split
          · exact .pure x
          · split
            · refine keeps_read.bind fun _ => ?_
              split
              · exact keeps_unsupported _ _
              · split <;> grind
            · grind

@[grind ←] theorem keeps_typescriptCast : Keeps part (typescriptCast t source x) := by
  unfold typescriptCast
  grind

@[grind ←] theorem keeps_zeroValue : Keeps part (zeroValue e t) :=
  (keeps_note _).bind fun _ => (keeps_defaultValue _).bind fun _ => .pure _

@[grind ←] theorem keeps_typeValue : Keeps part (typeValue e t) := by
  unfold typeValue
  grind

@[grind ←] theorem keeps_lambdaParameter (p : LambdaParameter) : Keeps part (lambdaParameter p) := by
  unfold lambdaParameter
  grind

@[grind ←] theorem keeps_self : Keeps part (self e) := by
  unfold self
  grind

/-! ## Statements -/

/-- **Statements around a temporary** are captured. -/
@[grind ←] theorem keeps_inPlace (opening declaration : String) (statements : List String) (result closing : String) :
    Keeps part (inPlace opening declaration statements result closing) := by
  refine .bind (.of_capture (fun n => ?_) ?_) fun _ => .pure _
  · refine (writes_line opening).bind fun _ => ?_
    refine writes_indent.bind fun _ => ?_
    refine (writes_line declaration).bind fun _ => ?_
    refine (Writes.forM fun s _ => writes_line s).bind fun _ => ?_
    refine (writes_line result).bind fun _ => ?_
    exact writes_outdent.bind fun _ => writes_write closing
  · refine (steady_line _).bind fun _ => steady_indent.bind fun _ => (steady_line _).bind fun _ => ?_
    refine (Keeps.forM steady_line statements).bind fun _ => (steady_line _).bind fun _ => ?_
    exact steady_outdent.bind fun _ => steady_write _

@[grind ←] theorem keeps_localHead (type : Option Ty) : Keeps part (localHead name type) := by
  unfold localHead
  grind

@[grind ←] theorem keeps_handlerName (h : Handler Stmt) : Keeps part (handlerName h) := by
  unfold handlerName
  grind

end Emit

end Polyglot
