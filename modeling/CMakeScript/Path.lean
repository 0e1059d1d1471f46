import CMakeScript.Text.Fields

/-!
# Paths

A path text is a list of segments between slashes. An absolute path is the list of names that lead
to it from the root; in it there are no empty segments and no dots.
-/

namespace CMakeScript

/-- An absolute path, as the names that lead to it from the root. -/
abbrev Path := List String

namespace Path

def segments (text : String) : List String :=
  (Text.fields '/' text.toList).map String.ofList

def isAbsolute (text : String) : Bool := text.toList.head? == some '/'

/-- Follows one segment from a directory. -/
def follow (directory : Path) (segment : String) : Path :=
  if segment == "" || segment == "." then directory
  else if segment == ".." then directory.dropLast
  else directory ++ [segment]

/-- The absolute path of a path text that is read in the given directory. -/
def resolve (directory : Path) (text : String) : Path :=
  (segments text).foldl follow (if isAbsolute text then [] else directory)

def text (path : Path) : String :=
  "/" ++ "/".intercalate path

/-- The directory in which a path text lies. -/
def parent (text : String) : String :=
  let front := "/".intercalate ((segments text).reverse.dropWhile (· == "")).tail.reverse
  if !front.isEmpty then front
  else if isAbsolute text then "/"
  else "."

/-- The names of two paths after those that they share. -/
def diverge : Path → Path → Path × Path
  | a :: as, b :: bs => if a == b then diverge as bs else (a :: as, b :: bs)
  | as, bs => (as, bs)

/-- The shortest way from one directory to another path. -/
def relative (start goal : Path) : String :=
  let (up, down) := diverge start goal
  "/".intercalate (up.map (fun _ => "..") ++ down)

end Path

end CMakeScript
