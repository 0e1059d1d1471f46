import CMakeScript.Text.Blank
import CMakeScript.Text.Fields

/-!
# Arguments of a CMake command

An argument is written bare, or between quotes where CMake would otherwise split or expand it.
Within quotes a backslash stands before every backslash, quote and dollar sign.
-/

namespace CMakeScript.Argument

/-- A character that may not stand in a bare argument. -/
def needsQuotes (c : Char) : Bool :=
  Text.isBlank c || c == '"' || c == '(' || c == ')' || c == '#' || c == ';' || c == '$' ||
    c == '\\'

/-- A character as it stands between quotes. -/
def escapeChar (c : Char) : List Char :=
  if c = '\\' ∨ c = '"' ∨ c = '$' then ['\\', c] else [c]

def escape (text : String) : String :=
  String.ofList (text.toList.flatMap escapeChar)

def quote (text : String) : String :=
  "\"" ++ escape text ++ "\""

/-- One argument: quoted if it is empty or holds a character that needs it, otherwise bare. -/
def render (value : String) : String :=
  if value.isEmpty || value.toList.any needsQuotes then quote value else value

/-- A list of arguments, separated by single spaces. -/
def renderList (items : List String) : String :=
  " ".intercalate (items.map render)

theorem toList_quote (value : String) :
    (quote value).toList = '"' :: (value.toList.flatMap escapeChar ++ ['"']) := by
  simp [quote, escape]

@[simp] theorem renderList_nil : renderList [] = "" := rfl

@[simp] theorem renderList_singleton (item : String) : renderList [item] = render item := by
  simp [renderList]

theorem toList_renderList_cons (first second : String) (rest : List String) :
    (renderList (first :: second :: rest)).toList =
      (render first).toList ++ ' ' :: (renderList (second :: rest)).toList := by
  simp [renderList, String.toList_intercalate, List.intercalate]

end CMakeScript.Argument
