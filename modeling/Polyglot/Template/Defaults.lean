import Polyglot.Template.Table

/-!
# Default templates

The templates of the library members that every compilation knows. The receiver is `this`, parameters are
named as they are declared, and `value` is what a property is set to.
-/

namespace Polyglot.Templates

/-- A variable as it is written in a template. -/
def hole (name : String) : String := "\x7b" ++ name ++ "\x7d"

/-- The texts of a member for the targets, by their names. -/
def entry (symbol : String) (texts : List String) : Entry :=
  { symbol, texts := ["csharp", "java", "typescript", "cpp", "rust"].zip texts }

def defaultEntries : List Entry := [
  entry "System.String.Length" [
    hole "this" ++ ".Length",
    hole "this" ++ ".length()",
    hole "this" ++ ".length",
    "static_cast<std::int32_t>(" ++ hole "this" ++ ".size())",
    "(" ++ hole "this" ++ ".encode_utf16().count() as i32)"],
  entry "System.Math.Max" [
    "System.Math.Max(" ++ hole "a" ++ ", " ++ hole "b" ++ ")",
    "Math.max(" ++ hole "a" ++ ", " ++ hole "b" ++ ")",
    "Math.max(" ++ hole "a" ++ ", " ++ hole "b" ++ ")",
    "std::max(" ++ hole "a" ++ ", " ++ hole "b" ++ ")",
    "phase::max(" ++ hole "a" ++ ", " ++ hole "b" ++ ")"],
  entry "System.Math.Abs" [
    "System.Math.Abs(" ++ hole "value" ++ ")",
    "Math.abs(" ++ hole "value" ++ ")",
    "Math.abs(" ++ hole "value" ++ ")",
    "std::abs(" ++ hole "value" ++ ")",
    hole "value" ++ ".abs()"],
  entry "System.Console.WriteLine" [
    "System.Console.WriteLine(" ++ hole "value" ++ ")",
    "System.out.println(" ++ hole "value" ++ ")",
    "console.log(" ++ hole "value" ++ ")",
    "phase::print_line(" ++ hole "value" ++ ")",
    "println!(\"\x7b\x7d\", " ++ hole "value" ++ ")"],
  entry "System.Exception.Message" [
    hole "this" ++ ".Message",
    hole "this" ++ ".getMessage()",
    hole "this" ++ ".message",
    hole "this" ++ "->Message()",
    hole "this" ++ ".borrow().message()"],
  entry "System.Array.Length" [
    hole "this" ++ ".Length",
    hole "this" ++ ".length",
    hole "this" ++ ".length",
    "static_cast<std::int32_t>(" ++ hole "this" ++ "->size())",
    "(" ++ hole "this" ++ ".borrow().len() as i32)"],
  { symbol := "System.Collections.Generic.List`1..ctor"
    texts := [("rust", "Rc::new(RefCell::new(Vec::<" ++ hole "T" ++ ">::new()))")] },
  entry "System.Collections.Generic.List`1.Add" [
    hole "this" ++ ".Add(" ++ hole "item" ++ ")",
    hole "this" ++ ".add(" ++ hole "item" ++ ")",
    hole "this" ++ ".push(" ++ hole "item" ++ ")",
    hole "this" ++ "->push_back(" ++ hole "item" ++ ")",
    hole "this" ++ ".borrow_mut().push(" ++ hole "item" ++ ")"],
  entry "System.Collections.Generic.List`1.Count" [
    hole "this" ++ ".Count",
    hole "this" ++ ".size()",
    hole "this" ++ ".length",
    "static_cast<std::int32_t>(" ++ hole "this" ++ "->size())",
    "(" ++ hole "this" ++ ".borrow().len() as i32)"],
  entry "System.Collections.Generic.List`1.Item" [
    hole "this" ++ "[" ++ hole "index" ++ "]",
    hole "this" ++ ".get(" ++ hole "index" ++ ")",
    hole "this" ++ "[" ++ hole "index" ++ "]",
    "(*" ++ hole "this" ++ ")[" ++ hole "index" ++ "]",
    hole "this" ++ ".borrow()[" ++ hole "index" ++ " as usize].clone()"],
  entry "System.Collections.Generic.List`1.Item.set" [
    hole "this" ++ "[" ++ hole "index" ++ "] = " ++ hole "value",
    hole "this" ++ ".set(" ++ hole "index" ++ ", " ++ hole "value" ++ ")",
    hole "this" ++ "[" ++ hole "index" ++ "] = " ++ hole "value",
    "(*" ++ hole "this" ++ ")[" ++ hole "index" ++ "] = " ++ hole "value",
    hole "this" ++ ".borrow_mut()[" ++ hole "index" ++ " as usize] = " ++ hole "value"]]

/-- **The default table.** Every text in it is a template, so none of them is refused. -/
def default : Templates := (ofEntries defaultEntries).toOption.getD {}

end Polyglot.Templates
