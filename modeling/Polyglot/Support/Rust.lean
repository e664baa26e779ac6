/-!
# Support code of Rust

What emitted Rust takes for granted: boxes for values with their text, exceptions, and the helpers that templates
name.
-/

namespace Polyglot.Support

def rustModule : List String := [
  "//! Support code referenced by generated Rust modules as `phase::`.",
  "#![allow(dead_code)]",
  "",
  "use std::any::Any;",
  "use std::cell::RefCell;",
  "use std::fmt;",
  "use std::rc::Rc;",
  "",
  "/// A value converted to `object`.",
  "#[derive(Clone)]",
  "pub struct Boxed \x7b",
  "    value: Rc<dyn Any>,",
  "    text: String,",
  "\x7d",
  "",
  "impl fmt::Display for Boxed \x7b",
  "    fn fmt(&self, f: &mut fmt::Formatter<'_>) -> fmt::Result \x7b",
  "        f.write_str(&self.text)",
  "    \x7d",
  "\x7d",
  "",
  "/// Types that can be boxed; `describe` is their printed form.",
  "pub trait Boxable: Any \x7b",
  "    fn describe(&self) -> String;",
  "\x7d",
  "",
  "macro_rules! display_boxable \x7b",
  "    ($($t:ty),*) => \x7b",
  "        $(impl Boxable for $t \x7b",
  "            fn describe(&self) -> String \x7b",
  "                self.to_string()",
  "            \x7d",
  "        \x7d)*",
  "    \x7d;",
  "\x7d",
  "",
  "display_boxable!(bool, i8, u8, i16, u16, i32, u32, i64, u64, f32, f64, String);",
  "",
  "impl<T: 'static> Boxable for Rc<RefCell<T>> \x7b",
  "    fn describe(&self) -> String \x7b",
  "        let name = std::any::type_name::<T>();",
  "        name.rsplit(\"::\").next().unwrap_or(name).to_string()",
  "    \x7d",
  "\x7d",
  "",
  "impl Boxable for Boxed \x7b",
  "    fn describe(&self) -> String \x7b",
  "        self.text.clone()",
  "    \x7d",
  "\x7d",
  "",
  "pub fn boxed<T: Boxable>(value: T) -> Boxed \x7b",
  "    let text = value.describe();",
  "    Boxed \x7b value: Rc::new(value), text \x7d",
  "\x7d",
  "",
  "pub fn unboxed<T: Clone + 'static>(value: &Boxed) -> T \x7b",
  "    match value.value.downcast_ref::<T>() \x7b",
  "        Some(v) => v.clone(),",
  "        None => throw(Exception::new(String::from(\"unbox: value has another type\"))),",
  "    \x7d",
  "\x7d",
  "",
  "/// Renders a UTF-16 code unit as a string.",
  "pub fn char_str(c: u16) -> String \x7b",
  "    String::from_utf16_lossy(&[c])",
  "\x7d",
  "",
  "pub fn max<T: PartialOrd>(a: T, b: T) -> T \x7b",
  "    if b > a \x7b",
  "        b",
  "    \x7d else \x7b",
  "        a",
  "    \x7d",
  "\x7d",
  "",
  "#[derive(Clone, Debug, Default)]",
  "pub struct Exception \x7b",
  "    message: String,",
  "\x7d",
  "",
  "impl Exception \x7b",
  "    pub fn new(message: String) -> Rc<RefCell<Exception>> \x7b",
  "        Rc::new(RefCell::new(Exception \x7b message \x7d))",
  "    \x7d",
  "",
  "    pub fn message(&self) -> String \x7b",
  "        self.message.clone()",
  "    \x7d",
  "\x7d",
  "",
  "/// Unwinds with the message of e.",
  "pub fn throw(e: Rc<RefCell<Exception>>) -> ! \x7b",
  "    let message = e.borrow().message();",
  "    std::panic::panic_any(message)",
  "\x7d"]

end Polyglot.Support
