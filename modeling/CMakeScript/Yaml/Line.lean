import CMakeScript.Text.Fields

/-!
# Lines of a YAML text

A YAML text is read line by line. A `Cursor` stands within a line, a `Spot` in front of the next
piece of content together with what the layout says about it.
-/

namespace CMakeScript.Yaml

/-- A line without its line end. -/
abbrev Line := List Char

def dropReturns : List Line → List Line
  | [] => []
  | [last] => [last]
  | line :: more =>
    (if line.getLast? = some '\r' then line.dropLast else line) :: dropReturns more

def linesOf (text : List Char) : List Line :=
  dropReturns (Text.fields '\n' text)

def isGap (c : Char) : Bool := c == ' ' || c == '\t'

/-- A character that separates or encloses the parts of a flow collection. -/
def isFlowMark (c : Char) : Bool := c == ',' || c == '[' || c == ']' || c == '{' || c == '}'

def startsWith (p : Char → Bool) : Line → Bool
  | c :: _ => p c
  | [] => false

/-- A token ends here: the line is over or white space follows. -/
def endsToken : Line → Bool
  | c :: _ => isGap c || c == '\r'
  | [] => true

/-- White space follows, or the line is over. -/
def isSpaced (line : Line) : Bool := line.isEmpty || startsWith isGap line

def indentOf (line : Line) : Nat := (line.takeWhile (· == ' ')).length

def dropGap (line : Line) : Line := line.dropWhile isGap

def dropGapEnd (line : Line) : Line := (line.reverse.dropWhile isGap).reverse

def isEmptyLine (line : Line) : Bool := line.all (· == ' ')

/-- A line may go on with a text that has to be indented by at least `least` blanks. -/
def continues (least : Nat) (line : Line) : Bool :=
  least == 0 || isEmptyLine line || decide (least ≤ indentOf line)

/-- One of the indicators `-`, `?`, `:` stands at the start, as a token of its own. In a flow
collection a flow mark may follow it as well. -/
def isIndicator (flow : Bool) (indicator : Char) : Line → Bool
  | c :: rest => c == indicator && (endsToken rest || (flow && startsWith isFlowMark rest))
  | [] => false

/-- A place in a text: the rest of a line and the lines after it. -/
structure Cursor where
  line : Line
  more : List Line

namespace Cursor

def sameLine (a b : Cursor) : Bool := a.more.length == b.more.length

def skip (cursor : Cursor) (n : Nat) : Cursor := ⟨cursor.line.drop n, cursor.more⟩

end Cursor

/-- The next content of a text. -/
structure Spot where
  line : Line
  more : List Line
  /-- The column that counts as the indentation of the line. -/
  indent : Nat
  /-- Only white space and indicators of block collections stand before it on the line. -/
  fresh : Bool
  /-- The white space right in front of it holds a tab. -/
  tab : Bool

/-- The next content that starts a line. Blank lines and comments are skipped. -/
def nextContent : List Line → Option Spot
  | [] => none
  | line :: more =>
    let rest := line.drop (indentOf line)
    let content := dropGap rest
    if content.isEmpty || startsWith (· == '#') content then nextContent more
    else some ⟨content, more, indentOf line, true, startsWith isGap rest⟩

/-- The line ends a text within its indentation: there is nothing but white space, and a tab
behind at most `column` blanks. -/
def breaksOff (column : Nat) (line : Line) : Bool :=
  line.all isGap && startsWith (· == '\t') (line.drop (indentOf line)) && indentOf line ≤ column

/-- The line is over, apart from a comment that white space precedes. -/
def isOver (line : Line) : Bool :=
  let content := dropGap line
  content.isEmpty || (startsWith (· == '#') content && startsWith isGap line)

/-- The number of UTF-16 units of a text. -/
def units (text : List Char) : Nat :=
  text.foldl (fun n c => n + if c.toNat < 0x10000 then 1 else 2) 0

/-- The greatest distance, in UTF-16 units, from the start of a key to its colon. -/
def keyLimit : Nat := 1024

/-- A key that starts with `start` ends early enough before `rest` on the same line. -/
def keyFits (start rest : Line) : Bool :=
  units (start.take (start.length - rest.length)) ≤ keyLimit

end CMakeScript.Yaml
