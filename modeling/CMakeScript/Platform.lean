/-!
# Platforms

The platforms a description may name, and the CMake variable that is true when configuring on each.
`ofId?_eq_some_iff` says that an identifier is read exactly as the platform that has it.
-/

namespace CMakeScript

/-- A platform with a CMake equivalent. -/
inductive Platform where
  | unix | windows | win32 | cygwin | macosx | linux | freebsd | mingw32 | msys
  deriving DecidableEq, Repr

namespace Platform

def id : Platform → String
  | unix => "unix"
  | windows => "windows"
  | win32 => "win32"
  | cygwin => "cygwin"
  | macosx => "macosx"
  | linux => "linux"
  | freebsd => "freebsd"
  | mingw32 => "mingw32"
  | msys => "msys"

/-- The CMake variable that is true on the platform. Several platforms share one. -/
def token : Platform → String
  | unix | linux | freebsd => "UNIX"
  | windows | win32 => "WIN32"
  | cygwin => "CYGWIN"
  | macosx => "APPLE"
  | mingw32 => "MINGW"
  | msys => "MSYS"

def all : List Platform :=
  [unix, windows, win32, cygwin, macosx, linux, freebsd, mingw32, msys]

def ofId? (text : String) : Option Platform :=
  all.find? fun p => p.id == text

theorem mem_all (p : Platform) : p ∈ all := by
  cases p <;> decide

theorem id_injective {p q : Platform} (h : p.id = q.id) : p = q := by
  revert h
  cases p <;> cases q <;> decide

theorem ofId?_id (p : Platform) : ofId? p.id = some p := by
  cases p <;> decide

theorem ofId?_eq_some_iff {text : String} {p : Platform} : ofId? text = some p ↔ p.id = text := by
  constructor
  · intro h
    simpa using List.find?_some h
  · rintro rfl
    exact ofId?_id p

/-- The table of platforms: a row each, the identifiers padded to one width. -/
def tableText : String :=
  let width := all.foldl (fun w p => max w p.id.length) 0
  "\n".intercalate <| all.map fun p =>
    "  " ++ p.id.pushn ' ' (width - p.id.length) ++ "  " ++ p.token

end Platform

end CMakeScript
