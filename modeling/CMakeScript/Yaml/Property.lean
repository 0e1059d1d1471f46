import CMakeScript.Text.Hex
import CMakeScript.Text.Utf8
import CMakeScript.Yaml.Line

/-!
# Properties of a node

In front of a node may stand an anchor, which names it, and a tag. A scalar is a text and a
collection is what it looks like, and a tag does not change that. Some types come from a tag alone:
binary data, time stamps, sets and the like. They are not read, so a tag that asks for one of them
is an error, and any other tag only has to be well formed.
-/

namespace CMakeScript.Yaml

/-- The anchor and the tag in front of a node. -/
structure Properties where
  anchor : Option String := none
  tagged : Bool := false

namespace Properties

def isEmpty (p : Properties) : Bool := p.anchor.isNone && !p.tagged

/-- The properties of one node from two places. Each kind stands at most once. -/
def merge? (p q : Properties) : Option Properties :=
  if (p.anchor.isSome && q.anchor.isSome) || (p.tagged && q.tagged) then none
  else some ⟨p.anchor.or q.anchor, p.tagged || q.tagged⟩

end Properties

/-- A character with which the name of an anchor ends. -/
def endsName (c : Char) : Bool := isFlowMark c || isGap c || c == '\r'

def anchorName (line : Line) : String × Line :=
  (String.ofList (line.takeWhile (!endsName ·)), line.dropWhile (!endsName ·))

/-- The declared beginnings of tags and what they stand for, the last declaration first. -/
abbrev Handles := List (String × String)

namespace Tag

/-- What the tags begin with that belong to YAML itself. -/
def ownStart : String := "tag:yaml.org,2002:"

/-- The types of YAML itself that come from a tag alone. -/
def unreadTypes : List String := ["binary", "merge", "omap", "pairs", "set", "timestamp"]

def isRead (tag : List Char) : Bool :=
  unreadTypes.all fun type => tag != (ownStart ++ type).toList

/-- A character that stands for itself in a tag. -/
def isTagChar (c : Char) : Bool :=
  c.isAlphanum || "-#;/?:@&=+$_.!~*'()".toList.contains c

/-- The part of a line that belongs to a tag, after its first exclamation mark. -/
def scan : Line → List Char
  | '%' :: a :: b :: rest =>
    if (Text.hexDigit? a).isSome && (Text.hexDigit? b).isSome then '%' :: a :: b :: scan rest
    else []
  | c :: rest => if isTagChar c then c :: scan rest else []
  | [] => []

/-- The octets that the end of a tag stands for. -/
def octets : List Char → List UInt8
  | '%' :: a :: b :: rest =>
    (16 * (Text.hexDigit? a).getD 0 + (Text.hexDigit? b).getD 0).toUInt8 :: octets rest
  | c :: rest => c.toNat.toUInt8 :: octets rest
  | [] => []

/-- What a tag stands for. It is given without its first exclamation mark and is not between angle
brackets. -/
def full? (handles : Handles) (tag : List Char) : Option (List Char) :=
  if tag.isEmpty then some ['!']
  else
    let suffix := (tag.reverse.takeWhile (· != '!')).reverse
    let handle := String.ofList ('!' :: tag.take (tag.length - suffix.length))
    if suffix.isEmpty then none
    else
      match handles.lookup handle with
      | some start =>
        let ending := octets suffix
        if Text.Utf8.isValid ending then some (start.toList ++ Text.Utf8.decode ending) else none
      | none => if handle == "!" then some ('!' :: tag) else none

/-- Reads a tag after its first exclamation mark. The result is the rest of the line. -/
def read? (handles : Handles) : Line → Option Line
  | '<' :: rest => do
    let tag := rest.takeWhile fun c => !(isGap c || c == '\r' || c == '>')
    guard (tag != ['!'] && tag != ['!', '!'] && isRead tag)
    match rest.drop tag.length with
    | '>' :: rest => return rest
    | _ => none
  | line => do
    let tag := scan line
    guard (isRead (← full? handles tag))
    return line.drop tag.length

end Tag

/-- A property stands at the start of the line. -/
def startsProperty (line : Line) : Bool := startsWith (fun c => c == '&' || c == '!') line

/-- Reads one property and adds it to others. The result also holds the rest of the line. -/
def Properties.read? (handles : Handles) (p : Properties) : Line → Option (Properties × Line)
  | '&' :: line => do
    let (name, rest) := anchorName line
    guard (!name.isEmpty)
    return (← p.merge? { anchor := some name }, rest)
  | '!' :: line => do
    let rest ← Tag.read? handles line
    return (← p.merge? { tagged := true }, rest)
  | _ => none

end CMakeScript.Yaml
