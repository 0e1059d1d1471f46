/-!
# Names

Packages, modules and variables have names that CMake accepts in an unquoted variable reference.
-/

namespace CMakeScript

/-- An ASCII letter or digit, or one of `_`, `.`, `+`, `-`. -/
def isNameChar (c : Char) : Bool :=
  c.isAlphanum || c == '_' || c == '.' || c == '+' || c == '-'

/-- A name: one or more name characters and nothing else. -/
def isName (text : String) : Bool :=
  !text.isEmpty && text.toList.all isNameChar

end CMakeScript
