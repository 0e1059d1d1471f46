import CMakeScript.Yaml.Node
import CMakeScript.Yaml.Plain
import CMakeScript.Yaml.Property
import CMakeScript.Yaml.Quoted

/-!
# Flow collections

A flow collection stands between brackets, and its line ends do not matter as long as every line is
indented far enough. In it a key and its value are separated by a colon; a list may hold a single
pair in the place of an item.
-/

namespace CMakeScript.Yaml

/-- The keys that are texts differ from each other. -/
def distinctKeys : List (Node × Node) → Bool
  | [] => true
  | (key, _) :: rest =>
    (key.scalar?.isNone || rest.all fun entry => entry.1.scalar? != key.scalar?) &&
      distinctKeys rest

/-- A scalar, an alias or a flow collection, with what matters if it is used as a key. -/
structure Atom where
  node : Node
  /-- It shows itself where it ends, as quoted texts and collections do. -/
  closed : Bool := false
  collection : Bool := false
  isAlias : Bool := false
  /-- The place where it ends. -/
  after : Cursor

namespace Flow

/-- What is known of a collection while its items are read. -/
structure Frame where
  handles : Handles
  /-- The least indentation of a line. -/
  least : Nat
  /-- The collection is not inside another flow collection. Its closing bracket may then be indented
  less by one. -/
  outer : Bool

def nextLine (frame : Frame) : List Line → Option Cursor
  | [] => none
  | line :: more =>
    let content := dropGap line
    let indent := indentOf line
    if content.isEmpty || startsWith (· == '#') content then nextLine frame more
    else if frame.least ≤ indent || (frame.outer && frame.least == indent + 1 &&
        startsWith (fun c => c == ']' || c == '}') content) then some ⟨content, more⟩
    else none

def next (frame : Frame) (cursor : Cursor) : Option Cursor :=
  if isOver cursor.line then nextLine frame cursor.more
  else some ⟨dropGap cursor.line, cursor.more⟩

/-- Reads the properties in front of a node, and goes to what follows them. -/
def properties (fuel : Nat) (frame : Frame) (p : Properties) (cursor : Cursor) :
    Option (Properties × Cursor) :=
  match fuel with
  | 0 => none
  | fuel + 1 =>
    if startsProperty cursor.line then do
      let (p, rest) ← p.read? frame.handles cursor.line
      guard (isSpaced rest || startsWith (fun c => c == ',' || c == ']' || c == '}') rest)
      properties fuel frame p (← next frame ⟨rest, cursor.more⟩)
    else some (p, cursor)

/-- One of the indicators that cannot start a node in a flow collection. -/
def startsIndicator (line : Line) : Bool :=
  isIndicator true '-' line || isIndicator true '?' line || isIndicator true ':' line

def startsClosing (line : Line) : Bool := startsWith (fun c => c == ']' || c == '}') line

def closing (isMap : Bool) : Char := if isMap then '}' else ']'

/-- An item of a collection: a node on its own, or a key with its value. -/
inductive Item where
  | single (node : Node)
  | pair (key value : Node)

/-- The item as an entry of a mapping. A node on its own is a key without a value. -/
def Item.entry : Item → Node × Node
  | single node => (node, .absent)
  | pair key value => (key, value)

/-- The item as part of a list. A pair is a mapping of one entry. -/
def Item.node : Item → Node
  | single node => node
  | pair key value => .map [(key, value)]

/-- A comment without indentation stands on the line below a place where the line is over. -/
def commentBelow (cursor : Cursor) : Bool :=
  isOver cursor.line && cursor.more.head?.any (startsWith (· == '#'))

mutual

def atom (fuel : Nat) (frame : Frame) (inFlow : Bool) (cursor : Cursor) : Option Atom :=
  match fuel, cursor.line with
  | 0, _ | _, [] => none
  | fuel + 1, c :: rest =>
    if c == '*' then do
      let (name, after) := anchorName rest
      guard (!name.isEmpty)
      return { node := .aliasOf name, isAlias := true, after := ⟨after, cursor.more⟩ }
    else if c == '"' then do
      let (text, after) ← Quoted.double frame.least ⟨rest, cursor.more⟩
      let text := String.ofList text
      return { node := .text text ("\"" ++ text ++ "\""), closed := true, after }
    else if c == '\'' then do
      let (text, after) ← Quoted.single frame.least ⟨rest, cursor.more⟩
      let text := String.ofList text
      return { node := .text text ("'" ++ text ++ "'"), closed := true, after }
    else if c == '[' || c == '\x7b' then do
      let isMap := c != '['
      let (items, after) ← items fuel { frame with outer := !inFlow } isMap ⟨rest, cursor.more⟩
      let entries := items.map Item.entry
      guard (!isMap || distinctKeys entries)
      let node := if isMap then .map entries else .list (items.map Item.node)
      return { node, closed := true, collection := true, after }
    else if Plain.isReserved c then none
    else
      let (text, after) := Plain.read inFlow frame.least cursor
      let text := String.ofList text
      some { node := .text text text, after }

def items (fuel : Nat) (frame : Frame) (isMap : Bool) (cursor : Cursor) :
    Option (List Item × Cursor) :=
  match fuel with
  | 0 => none
  | fuel + 1 => do
    let cursor ← next frame cursor
    if startsClosing cursor.line then
      guard (startsWith (· == closing isMap) cursor.line)
      return ([], cursor.skip 1)
    else
      let (found, after) ← item fuel frame isMap cursor
      let cursor ← next frame after
      if startsWith (· == ',') cursor.line then
        let (more, after) ← items fuel frame isMap (cursor.skip 1)
        return (found :: more, after)
      else
        guard (startsWith (· == closing isMap) cursor.line)
        return ([found], cursor.skip 1)

/-- Reads one item. Between a question mark or a property and a comma on the same line stands a node
without a text. -/
def item (fuel : Nat) (frame : Frame) (isMap : Bool) (cursor : Cursor) : Option (Item × Cursor) :=
  match fuel with
  | 0 => none
  | fuel + 1 => do
    let explicit := isIndicator true '?' cursor.line
    let start ← if explicit then next frame (cursor.skip 1) else some cursor
    let opening := cursor
    let (p, cursor) ← properties fuel frame {} start
    let isPair := isMap || explicit
    let opened := (explicit || !p.isEmpty) &&
      (if p.isEmpty then opening else start).sameLine cursor
    if isIndicator true ':' cursor.line then
      value fuel frame (Node.empty.withAnchor p.anchor) (cursor.skip 1)
    else if startsClosing cursor.line || (opened && startsWith (· == ',') cursor.line) then
      let node := Node.empty.withAnchor p.anchor
      return (if isPair then .pair node .absent else .single node, cursor)
    else
      guard (!startsIndicator cursor.line)
      let found ← atom fuel frame true cursor
      guard (!found.isAlias || p.isEmpty)
      let node := found.node.withAnchor p.anchor
      let after ← next frame found.after
      if startsWith (· == ':') after.line && (found.closed || isIndicator true ':' after.line) then
        guard (isPair || (cursor.sameLine after && keyFits start.line after.line))
        value fuel frame node (after.skip 1)
      else return (if isPair then .pair node .absent else .single node, found.after)

/-- Reads the value of a key after the colon. A comment on the line below it has to be indented. -/
def value (fuel : Nat) (frame : Frame) (key : Node) (cursor : Cursor) : Option (Item × Cursor) :=
  match fuel with
  | 0 => none
  | fuel + 1 => do
    let (p, cursor) ← properties fuel frame {} (← next frame cursor)
    if startsClosing cursor.line || startsWith (· == ',') cursor.line then
      return (.pair key (Node.empty.withAnchor p.anchor), cursor)
    else
      guard (!startsIndicator cursor.line)
      let found ← atom fuel frame true cursor
      guard ((!found.isAlias || p.isEmpty) && !commentBelow found.after)
      return (.pair key (found.node.withAnchor p.anchor), found.after)

end

end Flow

end CMakeScript.Yaml
