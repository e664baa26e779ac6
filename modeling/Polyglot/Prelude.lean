import Polyglot.Compilation

/-!
# The prelude

The library types that every compilation may refer to. Their members carry the identities under which
templates for them are found.
-/

namespace Polyglot.Prelude

def parameter (name type : String) : Option (ParameterDraft Draft) := some { name, type }

def member (kind id name returns : String) (parameters : List (String × String)) : Option MemberDraft :=
  some {
    kind, id, name, returns, access := "public"
    parameters := parameters.map fun (name, type) => parameter name type }

def staticMethod (id name returns : String) (parameters : List (String × String)) : Option MemberDraft :=
  (member "method" id name returns parameters).map ({ · with isStatic := true })

def property (id name type : String) : Option MemberDraft :=
  some { kind := "property", id, name, type, access := "public" }

def library (name : String) (members : List (Option MemberDraft)) : TypeDraft :=
  { kind := "class", name, members }

def exception (name base : String) (members : List (Option MemberDraft)) : TypeDraft :=
  { library name (member "constructor" "" "" "" [("message", "string")] :: members) with base }

def types : List TypeDraft :=
  [ library "System.Object"
      [some { kind := "method", name := "ToString", returns := "string", access := "public", isVirtual := true }],
    library "System.String" [property "System.String.Length" "Length" "int"],
    library "System.Array" [property "System.Array.Length" "Length" "int"],
    library "System.Type" [property "" "Name" "string"],
    library "System.Math"
      [ staticMethod "System.Math.Max" "Max" "int" [("a", "int"), ("b", "int")],
        staticMethod "System.Math.Max" "Max" "double" [("a", "double"), ("b", "double")],
        staticMethod "System.Math.Abs" "Abs" "int" [("value", "int")],
        staticMethod "System.Math.Abs" "Abs" "double" [("value", "double")] ],
    library "System.Console"
      [ staticMethod "System.Console.WriteLine" "WriteLine" "" [("value", "string")],
        staticMethod "System.Console.WriteLine" "WriteLine" "" [("value", "object")] ],
    exception "System.Exception" "" [property "System.Exception.Message" "Message" "string"],
    exception "System.ArgumentException" "System.Exception" [],
    exception "System.InvalidOperationException" "System.Exception" [],
    { library "System.Collections.Generic.List"
        [ member "constructor" "System.Collections.Generic.List`1..ctor" "" "" [],
          member "method" "System.Collections.Generic.List`1.Add" "Add" "" [("item", "T")],
          property "System.Collections.Generic.List`1.Count" "Count" "int",
          (property "System.Collections.Generic.List`1.Item" "Item" "T").map
            ({ · with parameters := [parameter "index" "int"] }) ] with
      typeParameters := ["T"]
      interfaces := ["IEnumerable<T>"] } ]

end Polyglot.Prelude

namespace Polyglot

def Compilation.load (file text : String) : Except Fault Compilation := do
  let doc ← Document.read text
  Compilation.ofDocument Prelude.types file doc

end Polyglot
