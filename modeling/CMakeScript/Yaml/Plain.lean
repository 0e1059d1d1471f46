import CMakeScript.Yaml.Folding

/-!
# Plain texts

A plain text has no quotes. It ends at a colon before white space, at a comment, or in a flow
collection at a flow mark.
-/

namespace CMakeScript.Yaml.Plain

/-- The part of a plain text on one line, with what is left of the line; nothing is left if the text
reaches the end of the line. `kept` and `gap` hold what has been read, last character first. -/
def onLine (flow : Bool) (kept gap : List Char) : Line → List Char × Option Line
  | [] => (kept.reverse, none)
  | c :: rest =>
    let stops := startsWith (· == '#') rest || (flow && startsWith isFlowMark rest)
    if isIndicator flow ':' (c :: rest) || (flow && isFlowMark c) then
      (kept.reverse, some (gap.reverse ++ c :: rest))
    else if isGap c then
      if stops then (kept.reverse, some (gap.reverse ++ c :: rest))
      else onLine flow kept (c :: gap) rest
    else if c == '\r' && stops then ((c :: gap ++ kept).reverse, some rest)
    else onLine flow (c :: gap ++ kept) [] rest

/-- How a plain text goes on after a part that reached the end of its line, `n` empty lines later.
It must be indented by `least` blanks. -/
def onLines (flow : Bool) (least : Nat) (n : Nat) : List Line → Option (List Char × Cursor)
  | [] => none
  | line :: more =>
    let content := dropGap line
    if !continues least line then none
    else if content.isEmpty then onLines flow least (n + 1) more
    else if startsWith (· == '#') content || isIndicator flow ':' content ||
        (flow && startsWith isFlowMark content) then none
    else
      match onLine flow [] [] content with
      | (part, some rest) => some (foldGap n ++ part, ⟨rest, more⟩)
      | (part, none) =>
        match onLines flow least 0 more with
        | some (tail, cursor) => some (foldGap n ++ part ++ tail, cursor)
        | none => some (foldGap n ++ part, ⟨[], more⟩)

/-- Reads a plain text. -/
def read (flow : Bool) (least : Nat) (cursor : Cursor) : List Char × Cursor :=
  match onLine flow [] [] cursor.line with
  | (part, some rest) => (part, ⟨rest, cursor.more⟩)
  | (part, none) =>
    match onLines flow least 0 cursor.more with
    | some (tail, after) => (part ++ tail, after)
    | none => (part, ⟨[], cursor.more⟩)

/-- A character with which no plain text starts. -/
def isReserved (c : Char) : Bool :=
  c == ',' || c == '%' || c == '@' || c == '\x60' || c == '|' || c == '>' || c == ']' || c == '}' ||
    c == '#'

end CMakeScript.Yaml.Plain
