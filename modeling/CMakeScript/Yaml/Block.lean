import CMakeScript.Yaml.BlockText
import CMakeScript.Yaml.Flow

/-!
# Block collections

In a block collection the layout says what belongs together. The entries of a mapping and the
items of a list start in one column, and what belongs to them is indented further; only the items
of a list may stand in the column of the mapping around it.
-/

namespace CMakeScript.Yaml.Block

/-- Where a node may stand. -/
structure Frame where
  handles : Handles
  /-- The least indentation of its lines. -/
  least : Nat
  /-- It belongs to a mapping, so a list may be indented less by one. -/
  inMap : Bool

/-- The frame of what belongs to a collection in the given column. -/
def Frame.inner (frame : Frame) (column : Nat) (inMap : Bool) : Frame :=
  { frame with least := column + 1, inMap }

/-- The frame of a flow collection or a text over several lines. -/
def Frame.flow (frame : Frame) : Flow.Frame := ⟨frame.handles, frame.least, true⟩

/-- The next content belongs to the node that the frame is for. -/
def Frame.holds (frame : Frame) (spot : Spot) : Bool :=
  frame.least ≤ spot.indent ||
    (frame.inMap && frame.least == spot.indent + 1 && isIndicator false '-' spot.line)

/-- The content behind an indicator of a block collection at a spot, if it is on the same line. What
follows is indented by the indicator and by the white space after it, unless a tab comes first. -/
def behind (spot : Spot) : Spot :=
  let rest := spot.line.drop 1
  let content := dropGap rest
  let gap := rest.length - content.length
  { line := content
    more := spot.more
    indent := spot.indent + 1 + if startsWith (· == ' ') rest then gap else 0
    fresh := true
    tab := (rest.take gap).contains '\t' }

/-- A spot on the same line behind something that is not an indicator of a block collection. -/
def along (spot : Spot) (rest : Line) : Spot :=
  let content := dropGap rest
  { spot with
    line := content
    fresh := false
    tab := (rest.take (rest.length - content.length)).contains '\t' }

/-- The spot where something that has been read ends, on the line of `after`. -/
def endOf (spot : Spot) (after : Cursor) : Spot :=
  { along spot after.line with more := after.more }

/-- The colon on a line below a key, in the given column or further right. Nothing but a comment
stands behind the key, whose line ends with `rest`. -/
def colonBelow (column : Nat) (rest : Line) (more : List Line) : Option Spot :=
  if isOver rest then
    (nextContent more).filter fun spot => isIndicator false ':' spot.line && column ≤ spot.indent
  else none

/-- The frame of the value behind the colon at a spot, in a mapping in the given column. The lines
of a value that starts on the line of the colon are indented further than that line. -/
def Frame.value (frame : Frame) (column : Nat) (colon : Spot) : Frame :=
  frame.inner (if isOver (colon.line.drop 1) then column else colon.indent) true

/-- A node with the next content after it. -/
abbrev Found := Node × Option Spot

mutual

/-- Reads the node that a spot leads to. The spot may be at the end of its line, or at a comment
that follows `white`; then the node is on the next lines or has no text. `start` allows a block
collection on this line. -/
def node (fuel : Nat) (frame : Frame) (start : Bool) (white : Bool) (p : Properties) (spot : Spot) :
    Option Found :=
  match fuel with
  | 0 => none
  | fuel + 1 =>
    if spot.line.isEmpty || (white && startsWith (· == '#') spot.line) then
      match nextContent spot.more with
      | none =>
        if spot.more.getLast?.any (breaksOff (frame.least - 1)) then none
        else some (Node.empty.withAnchor p.anchor, none)
      | some next =>
        if frame.holds next then content fuel frame true p {} next
        else some (Node.empty.withAnchor p.anchor, some next)
    else content fuel frame start p {} spot
termination_by structural fuel

/-- Reads the node that starts at a spot. `outer` are its properties on earlier lines, `inner`
those on this line, which belong to the first key if the node turns out to be a mapping. -/
def content (fuel : Nat) (frame : Frame) (start : Bool) (outer inner : Properties) (spot : Spot) :
    Option Found :=
  match fuel with
  | 0 => none
  | fuel + 1 =>
    let collection := start && inner.isEmpty && !spot.tab
    if startsProperty spot.line then do
      guard (!(spot.fresh && spot.tab))
      let (inner, rest) ← inner.read? frame.handles spot.line
      guard (isSpaced rest)
      if isOver rest then node fuel frame start true (← outer.merge? inner) (along spot [])
      else content fuel frame start outer inner (along spot rest)
    else if isIndicator false '-' spot.line then do
      guard collection
      let (items, next) ← list fuel frame spot.indent (some spot)
      return ((Node.list items).withAnchor outer.anchor, next)
    else if isIndicator false '?' spot.line then do
      guard collection
      let (entries, next) ← mapping fuel frame spot.indent [] (some spot)
      return ((Node.map entries).withAnchor outer.anchor, next)
    else if isIndicator false ':' spot.line then do
      guard (start && !(inner.isEmpty && spot.tab))
      let (value, next) ← valueOf fuel frame spot.indent spot
      let (entries, next) ←
        mapping fuel frame spot.indent [(Node.empty.withAnchor inner.anchor, value)] next
      return ((Node.map entries).withAnchor outer.anchor, next)
    else do
      guard (frame.least != 0 || !(spot.tab && spot.fresh && spot.indent == 0) ||
        startsWith (fun c => c == '[' || c == '\x7b') spot.line)
      if startsWith (fun c => c == '|' || c == '>') spot.line then
        let p ← outer.merge? inner
        let (text, more) ← BlockText.read? frame.least spot.line spot.more
        let text := String.ofList text
        return ((Node.text text text).withAnchor p.anchor, nextContent more)
      else
        let cursor : Cursor := ⟨spot.line, spot.more⟩
        let found ← Flow.atom fuel frame.flow false cursor
        if isIndicator false ':' (dropGap found.after.line) then
          if start then
            guard (!(inner.isEmpty && spot.tab) && (!found.isAlias || inner.isEmpty))
            guard (cursor.sameLine found.after && keyFits spot.line (dropGap found.after.line))
            let key := found.node.withAnchor inner.anchor
            let (value, next) ← valueOf fuel frame spot.indent (endOf spot found.after)
            let (entries, next) ← mapping fuel frame spot.indent [(key, value)] next
            return ((Node.map entries).withAnchor outer.anchor, next)
          else
            -- the colon behind a collection starts an entry of the mapping around it
            guard found.collection
            let p ← outer.merge? inner
            let next := { endOf spot found.after with tab := false }
            return (found.node.withAnchor p.anchor, some next)
        else
          let p ← outer.merge? inner
          guard (isOver found.after.line && (!found.isAlias || p.isEmpty))
          return (found.node.withAnchor p.anchor, nextContent found.after.more)
termination_by structural fuel

/-- Reads the value behind the colon at a spot, for a key in the given column. -/
def valueOf (fuel : Nat) (frame : Frame) (column : Nat) (spot : Spot) : Option Found :=
  match fuel with
  | 0 => none
  | fuel + 1 =>
    node fuel (frame.value column spot) false (startsWith isGap (spot.line.drop 1)) {}
      (along spot (spot.line.drop 1))
termination_by structural fuel

/-- Reads the items of a list in the given column. -/
def list (fuel : Nat) (frame : Frame) (column : Nat) (next : Option Spot) :
    Option (List Node × Option Spot) :=
  match fuel, next with
  | 0, _ => none
  | _, none => some ([], none)
  | fuel + 1, some spot =>
    if spot.indent == column && isIndicator false '-' spot.line then do
      guard (!spot.tab)
      let (item, next) ← node fuel (frame.inner column false) true
        (startsWith isGap (spot.line.drop 1)) {} (behind spot)
      let (items, next) ← list fuel frame column next
      return (item :: items, next)
    else if spot.indent ≤ column then some ([], some spot)
    else none
termination_by structural fuel

/-- Reads the entries of a mapping in the given column, after those that have been read already.
Only a colon without a key may stand further right. -/
def mapping (fuel : Nat) (frame : Frame) (column : Nat) (entries : List (Node × Node))
    (next : Option Spot) : Option (List (Node × Node) × Option Spot) :=
  match fuel, next with
  | 0, _ => none
  | _, none => if distinctKeys entries then some (entries, none) else none
  | fuel + 1, some spot =>
    if spot.indent < column then if distinctKeys entries then some (entries, some spot) else none
    else do
      guard ((spot.indent == column || isIndicator false ':' spot.line) && !spot.tab)
      let (entry, next) ←
        if isIndicator false '?' spot.line then explicitEntry fuel frame column spot
        else entry fuel frame column {} spot.line spot
      mapping fuel frame column (entries ++ [entry]) next
termination_by structural fuel

/-- Reads an entry whose key follows a question mark. Its value, if there is one, follows a colon
on a line of its own; something else that belongs to the entry is skipped. -/
def explicitEntry (fuel : Nat) (frame : Frame) (column : Nat) (spot : Spot) :
    Option ((Node × Node) × Option Spot) :=
  match fuel with
  | 0 => none
  | fuel + 1 => do
    let inner := frame.inner column true
    let rest := spot.line.drop 1
    let (key, next) ← match colonBelow column rest spot.more with
      | some colon => some (Node.empty, some colon)
      | none => node fuel inner true (startsWith isGap rest) {} (behind spot)
    match next with
    | none => return ((key, .absent), none)
    | some spot =>
      if isIndicator false ':' spot.line && column ≤ spot.indent then
        match colonBelow column (spot.line.drop 1) spot.more with
        | some colon =>
          guard (!spot.tab)
          let (entries, next) ← mapping fuel frame colon.indent [] (some colon)
          return ((key, .map entries), next)
        | none =>
          let (value, next) ← valueBelow fuel frame column spot
          return ((key, value), next)
      else if inner.holds spot then
        let (_, next) ← content fuel inner true {} {} spot
        return ((key, .absent), next)
      else return ((key, .absent), some spot)
termination_by structural fuel

/-- Reads the value behind a colon on a line of its own. -/
def valueBelow (fuel : Nat) (frame : Frame) (column : Nat) (spot : Spot) : Option Found :=
  match fuel with
  | 0 => none
  | fuel + 1 => do
    guard (!spot.tab)
    node fuel (frame.value column spot) true (startsWith isGap (spot.line.drop 1)) {} (behind spot)
termination_by structural fuel

/-- Reads an entry whose key is on one line. Its colon may stand on a line below, further right.
`line` is the line from the start of the entry. -/
def entry (fuel : Nat) (frame : Frame) (column : Nat) (p : Properties) (line : Line) (spot : Spot) :
    Option ((Node × Node) × Option Spot) :=
  match fuel with
  | 0 => none
  | fuel + 1 =>
    if startsProperty spot.line then do
      let (p, rest) ← p.read? frame.handles spot.line
      guard (isSpaced rest && !isOver rest)
      entry fuel frame column p line (along spot rest)
    else if isIndicator false ':' spot.line then do
      let (value, next) ← valueOf fuel frame column spot
      return ((Node.empty.withAnchor p.anchor, value), next)
    else do
      guard (!isIndicator false '-' spot.line && !isIndicator false '?' spot.line &&
        !startsWith (fun c => c == '|' || c == '>') spot.line)
      let cursor : Cursor := ⟨spot.line, spot.more⟩
      let found ← Flow.atom fuel (frame.inner column true).flow false cursor
      let rest := dropGap found.after.line
      guard (cursor.sameLine found.after && keyFits line rest && (!found.isAlias || p.isEmpty))
      let (value, next) ← match colonBelow (column + 1) found.after.line found.after.more with
        | some colon => valueBelow fuel frame column colon
        | none =>
          if isIndicator false ':' rest then valueOf fuel frame column (endOf spot found.after)
          else none
      return ((found.node.withAnchor p.anchor, value), next)
termination_by structural fuel

end

end CMakeScript.Yaml.Block
