import CMakeScript.Yaml.Line

/-!
# Folding

A text over several lines is written into one: a line end becomes a blank, and a run of empty lines
becomes as many line feeds.
-/

namespace CMakeScript.Yaml

/-- What stands between two parts of a folded text with `n` empty lines between them. -/
def foldGap (n : Nat) : List Char :=
  if n = 0 then [' '] else List.replicate n '\n'

/-- Folds the lines after the first one, `n` empty lines after the last part. -/
def foldAfter (n : Nat) : List Line → List Char
  | [] => []
  | [last] => foldGap n ++ dropGap last
  | line :: more =>
    let part := dropGapEnd (dropGap line)
    if part.isEmpty then foldAfter (n + 1) more else foldGap n ++ part ++ foldAfter 0 more

/-- Folds the lines of a text. White space around the line ends is dropped. -/
def foldLines : List Line → List Char
  | [] => []
  | [only] => only
  | first :: more => dropGapEnd first ++ foldAfter 0 more

end CMakeScript.Yaml
