import CMakeScript.Yaml.Block

/-!
# Documents

A YAML text holds at most one document. Directives, blank lines and comments may stand before it,
and the same after a line of three dots. All scalars are texts, so that a version number such as
`5.10` is not taken for a number.
-/

namespace CMakeScript.Yaml

def isMark (mark : String) (line : Line) : Bool :=
  line.take 3 == mark.toList && endsToken (line.drop 3)

def endsDocument (line : Line) : Bool := isMark "---" line || isMark "..." line

def words (line : Line) : List (List Char) :=
  ((Text.fields ' ' (line.map fun c => if c == '\t' then ' ' else c))).filter (!·.isEmpty)

def dropComment : Line → Line
  | [] => []
  | c :: rest => if isGap c && startsWith (· == '#') rest then [] else c :: dropComment rest

def isVersion (word : List Char) : Bool :=
  match Text.fields '.' word with
  | [major, minor] =>
    !major.isEmpty && !minor.isEmpty && major.all Char.isDigit && minor.all Char.isDigit
  | _ => false

/-- What a directive does to the declared beginnings of tags. Unknown directives do nothing. -/
def directive? (handles : Handles) (line : Line) : Option Handles :=
  match words (dropComment line) with
  | name :: arguments =>
    if name == "%TAG".toList then
      match arguments with
      | [handle, start] => some ((String.ofList handle, String.ofList start) :: handles)
      | _ => none
    else if name == "%YAML".toList then
      match arguments with
      | [version] => if isVersion version then some handles else none
      | _ => none
    else some handles
  | [] => some handles

/-- A line without the byte order mark at its start. Blanks after the mark are no indentation. -/
def dropMark : Line → Line
  | '\uFEFF' :: rest => rest.dropWhile (· == ' ')
  | line => line

structure Opening where
  handles : Handles := [("!!", Tag.ownStart)]
  /-- There was a directive. -/
  directives : Bool := false

/-- Reads the lines before a document. The result holds the lines of the document and after it. -/
def opening? (o : Opening) : List Line → Option (Opening × List Line)
  | [] => some (o, [])
  | line :: more =>
    let line := dropMark line
    if startsWith (· == '%') line then do
      opening? { handles := ← directive? o.handles line, directives := true } more
    else if isOver line || startsWith (· == '#') line then opening? o more
    else some (o, line :: more)

/-- Nothing but a comment stands behind the mark at the end of a document, and no other document
follows. -/
def closes : List Line → Bool
  | [] => true
  | mark :: more =>
    isMark "..." mark && isOver (mark.drop 3) &&
      match opening? {} more with
      | some (_, rest) => rest.isEmpty
      | none => false

/-- The number of steps that suffice to read lines. -/
def stepsFor (lines : List Line) : Nat :=
  16 * (lines.foldl (fun n line => n + line.length + 1) 0) + 64

/-- Reads the node of a document. The first line may follow the mark that starts the document. -/
def root? (handles : Handles) (marked : Option Line) (lines : List Line) : Option Node := do
  let first := marked.getD []
  let spot := Block.along ⟨[], lines, 0, false, false⟩ first
  let (node, next) ← Block.node (stepsFor (first :: lines)) ⟨handles, 0, false⟩ false
    (startsWith isGap first) {} spot
  guard next.isNone
  return node

/-- Reads a text. There is no node if there is no document. -/
def read? (text : List Char) : Option (Option Node) := do
  let (o, lines) ← opening? {} (linesOf text)
  match lines with
  | [] =>
    guard (!o.directives)
    return none
  | first :: more =>
    let marked := if isMark "---" first then some (first.drop 3) else none
    guard (marked.isSome || !o.directives)
    let lines := if marked.isSome then more else first :: more
    let body := lines.takeWhile (!endsDocument ·)
    let after := lines.dropWhile (!endsDocument ·)
    guard (closes after)
    return some (← root? o.handles marked (if after.isEmpty then body else body ++ [[]]))

/-- The data that a text holds. A text without a document holds none. -/
def data? (text : List Char) : Option Data := do
  match ← read? text with
  | none => return .null
  | some node => node.data?

/-- The reader of data for YAML. It does not say more about a text that it cannot read. -/
def parse : DataReader := fun text =>
  match data? text with
  | some data => .ok data
  | none => .error "the text cannot be read as YAML"

end CMakeScript.Yaml
