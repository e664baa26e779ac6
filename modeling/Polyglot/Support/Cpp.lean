/-!
# Support code of C++

What emitted C++ takes for granted: a root class with text, exceptions, boxes for values, and the helpers that
templates name.
-/

namespace Polyglot.Support

def cppHeader : List String := [
  "// Support code included by every generated C++ header.",
  "#pragma once",
  "",
  "#include <algorithm>",
  "#include <any>",
  "#include <cmath>",
  "#include <cstdint>",
  "#include <functional>",
  "#include <iostream>",
  "#include <map>",
  "#include <memory>",
  "#include <sstream>",
  "#include <string>",
  "#include <type_traits>",
  "#include <unordered_set>",
  "#include <utility>",
  "#include <vector>",
  "",
  "namespace phase \x7b",
  "",
  "// Root of every generated class; thrown values are held as shared_ptr<Object>.",
  "class Object : public std::enable_shared_from_this<Object> \x7b",
  "public:",
  "    virtual ~Object() = default;",
  "    virtual std::string ToString() const \x7b return \"Object\"; \x7d",
  "\x7d;",
  "",
  "inline std::string to_string(const std::string& v) \x7b return v; \x7d",
  "inline std::string to_string(const char* v) \x7b return std::string(v); \x7d",
  "inline std::string to_string(bool v) \x7b return v ? \"True\" : \"False\"; \x7d",
  "",
  "inline std::string to_string(char16_t v) \x7b",
  "    std::string out;",
  "    if (v < 0x80) \x7b",
  "        out.push_back(static_cast<char>(v));",
  "    \x7d else if (v < 0x800) \x7b",
  "        out.push_back(static_cast<char>(0xC0 | (v >> 6)));",
  "        out.push_back(static_cast<char>(0x80 | (v & 0x3F)));",
  "    \x7d else \x7b",
  "        out.push_back(static_cast<char>(0xE0 | (v >> 12)));",
  "        out.push_back(static_cast<char>(0x80 | ((v >> 6) & 0x3F)));",
  "        out.push_back(static_cast<char>(0x80 | (v & 0x3F)));",
  "    \x7d",
  "    return out;",
  "\x7d",
  "",
  "template <typename T, typename std::enable_if<std::is_arithmetic<T>::value, int>::type = 0>",
  "std::string to_string(T v) \x7b",
  "    std::ostringstream s;",
  "    s << +v;",
  "    return s.str();",
  "\x7d",
  "",
  "inline std::string to_string(const std::shared_ptr<Object>& v) \x7b",
  "    return v ? v->ToString() : std::string();",
  "\x7d",
  "",
  "template <typename T, typename std::enable_if<std::is_base_of<Object, T>::value, int>::type = 0>",
  "std::string to_string(const std::shared_ptr<T>& v) \x7b",
  "    return v ? v->ToString() : std::string();",
  "\x7d",
  "",
  "class Exception : public virtual Object \x7b",
  "public:",
  "    explicit Exception(std::string message) : message_(std::move(message)) \x7b\x7d",
  "    const std::string& Message() const \x7b return message_; \x7d",
  "    std::string ToString() const override \x7b return message_; \x7d",
  "",
  "private:",
  "    std::string message_;",
  "\x7d;",
  "",
  "class ArgumentException : public Exception \x7b",
  "public:",
  "    using Exception::Exception;",
  "\x7d;",
  "",
  "class InvalidOperationException : public Exception \x7b",
  "public:",
  "    using Exception::Exception;",
  "\x7d;",
  "",
  "class InvalidCastException : public Exception \x7b",
  "public:",
  "    using Exception::Exception;",
  "\x7d;",
  "",
  "// Boxed holds a value type converted to Object.",
  "template <typename T>",
  "class Boxed : public Object \x7b",
  "public:",
  "    explicit Boxed(T v) : value(std::move(v)) \x7b\x7d",
  "    std::string ToString() const override \x7b return to_string(value); \x7d",
  "    T value;",
  "\x7d;",
  "",
  "template <typename T>",
  "std::shared_ptr<Object> box(T value) \x7b",
  "    if constexpr (std::is_convertible<T, std::shared_ptr<Object>>::value) \x7b",
  "        return value;",
  "    \x7d else \x7b",
  "        return std::make_shared<Boxed<T>>(std::move(value));",
  "    \x7d",
  "\x7d",
  "",
  "template <typename T>",
  "T unbox(const std::shared_ptr<Object>& o) \x7b",
  "    auto b = std::dynamic_pointer_cast<Boxed<T>>(o);",
  "    if (!b) \x7b",
  "        throw std::shared_ptr<Object>(std::make_shared<InvalidCastException>(\"unbox: value has another type\"));",
  "    \x7d",
  "    return b->value;",
  "\x7d",
  "",
  "template <typename T>",
  "void print_line(const T& value) \x7b",
  "    std::cout << to_string(value) << std::endl;",
  "\x7d",
  "",
  "template <typename T>",
  "T max(T a, T b) \x7b",
  "    return std::max(a, b);",
  "\x7d",
  "",
  "\x7d  // namespace phase"]

end Polyglot.Support
