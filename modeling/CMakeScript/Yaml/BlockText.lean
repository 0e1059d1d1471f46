import CMakeScript.Yaml.Line

/-!
# Block texts

A block text stands on the lines after a header. A literal one keeps its line ends, a folded one
turns them into blanks. The header may also say how far the text is indented and what becomes of the
line ends after it.
-/

namespace CMakeScript.Yaml.BlockText

/-- What becomes of the line ends after the text: one is left, none, or all. -/
inductive Chomping where
  | clip | strip | keep
  deriving DecidableEq

structure Header where
  folded : Bool
  chomping : Chomping := .clip
  /-- The indentation of the text relative to its parent; zero if the first line decides. -/
  indent : Nat := 0

/-- Reads the signs of a header. Each kind of sign stands at most once, in any order. -/
def Header.read? (h : Header) : List Char → Option Header
  | [] => some h
  | c :: rest =>
    if (c == '-' || c == '+') && h.chomping == .clip then
      Header.read? { h with chomping := if c == '-' then .strip else .keep } rest
    else if '1' ≤ c ∧ c ≤ '9' ∧ h.indent = 0 then
      Header.read? { h with indent := c.toNat - '0'.toNat } rest
    else none

/-- A line as its indentation and its content. -/
abbrev Row := Nat × List Char

def row (line : Line) : Row := (indentOf line, line.drop (indentOf line))

/-- The lines of a block text, the lines after it, and the indentation of its first line. They are
indented by at least `least` blanks, or by as many as the header and the first line demand. There
are none if all that follows the header is a line with too few blanks. -/
def extent (h : Header) (least : Nat) (lines : List Line) : List Line × List Line × Nat :=
  let leading := lines.takeWhile isEmptyLine
  let after := lines.dropWhile isEmptyLine
  let first := match after with
    | line :: _ => indentOf line
    | [] => (leading.getLast?.map List.length).getD 0
  if after.isEmpty && leading.length ≤ 1 && first < max least 1 then ([], [], first)
  else if least ≤ first then
    let demanded := if h.indent = 0 then first else h.indent - 1 + max least 1
    (leading ++ after.takeWhile (continues demanded), after.dropWhile (continues demanded), first)
  else (leading, after, first)

/-- Drops the empty lines at the end that are not indented further than the first line of the text;
the first line of all stays. -/
def dropEmptyEnd (first : Nat) (lines : List Line) : List Line :=
  match lines with
  | [] => []
  | head :: more =>
    let isDropped (line : Line) : Bool := isEmptyLine line && decide (line.length ≤ first)
    head :: (more.reverse.dropWhile isDropped).reverse

def rows (h : Header) (first : Nat) (lines after : List Line) : List Row :=
  let kept := if h.chomping == .keep then lines else dropEmptyEnd first lines
  let ended := !after.isEmpty || kept.length < lines.length
  if lines.isEmpty then [] else (kept ++ if ended then [[]] else []).map row

/-- The literal text of rows that are indented by `indent`. -/
def literal (indent : Nat) (sep : List Char) : List Row → List Char
  | [] => []
  | (n, content) :: more =>
    sep ++ List.replicate (n - indent) ' ' ++ content ++ literal indent ['\n'] more

/-- The folded text of rows that are indented by `indent`. Line ends around a row that is indented
further stay. -/
def folded (indent : Nat) (sep : List Char) (further : Bool) : List Row → List Char
  | [] => []
  | (n, content) :: more =>
    if n > indent || startsWith (· == '\t') content then
      let sep :=
        if sep = [' '] then ['\n'] else if !further && sep = ['\n'] then ['\n', '\n'] else sep
      sep ++ List.replicate (n - indent) ' ' ++ content ++ folded indent ['\n'] true more
    else if content.isEmpty then
      if sep = ['\n'] then '\n' :: folded indent sep further more
      else folded indent ['\n'] further more
    else sep ++ content ++ folded indent [' '] false more

def isEmptyRow (r : Row) : Bool := r.2.isEmpty

/-- The rows up to the last one for which `p` holds, and the rows after it. -/
def splitLast (p : Row → Bool) (rs : List Row) : List Row × List Row :=
  ((rs.reverse.dropWhile fun r => !p r).reverse, (rs.reverse.takeWhile fun r => !p r).reverse)

/-- The line ends after the text. -/
def ending (h : Header) (indent : Nat) (text : List Char) (tail : List Row) : List Char :=
  match h.chomping with
  | .strip => []
  | .clip => ['\n']
  | .keep =>
    let rest := tail.flatMap fun r => '\n' :: List.replicate (r.1 - indent) ' '
    if (text ++ rest).getLast? = some '\n' then rest else rest ++ ['\n']

/-- The text that rows stand for. `parent` is the indentation of the collection around it; in a
collection the text must be indented. -/
def value? (h : Header) (parent : Nat) (atRoot : Bool) (rs : List Row) : Option (List Char) :=
  let (body, tail) := splitLast (fun r => !isEmptyRow r) rs
  match body.dropWhile isEmptyRow with
  | [] =>
    some (if h.chomping == .keep && !rs.isEmpty then List.replicate (max 1 (rs.length - 1)) '\n'
      else [])
  | first :: _ =>
    let leading := body.takeWhile isEmptyRow
    let least := if h.indent = 0 then leading.foldl (fun n r => max n r.1) parent
      else parent + h.indent
    let indent := if h.indent = 0 then first.1 else least
    let (further, tail) := splitLast (fun r => r.1 > indent) tail
    let content := body.dropWhile isEmptyRow ++ further
    if first.1 < least || (indent == 0 && !atRoot) ||
        content.any (fun r => !isEmptyRow r && r.1 < indent) then none
    else
      let text := (leading.flatMap fun r => List.replicate (r.1 - indent) ' ' ++ ['\n']) ++
        if h.folded then folded indent [] false content else literal indent [] content
      some (text ++ ending h indent text tail)

/-- Reads a block text whose header stands at the start of a line. What is indented by `least`
blanks belongs to it. The result holds the lines after it. A tab may not stand in their
indentation. -/
def read? (least : Nat) (line : Line) (more : List Line) : Option (List Char × List Line) := do
  let (kind, rest) ← match line with
    | c :: rest => some (c, rest)
    | [] => none
  let signs := rest.takeWhile fun c => !(isGap c || c == '\r' || c == '#')
  guard (isOver (rest.drop signs.length))
  let h ← Header.read? { folded := kind == '>' } signs
  let (lines, after, first) := extent h least more
  guard (!after.head?.any fun next => startsWith (· == '\t') (next.drop (indentOf next)))
  let text ← value? h (least - 1) (least == 0) (rows h first lines after)
  return (text, after)

end CMakeScript.Yaml.BlockText
