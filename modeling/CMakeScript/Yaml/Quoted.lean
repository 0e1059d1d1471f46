import CMakeScript.Text.Hex
import CMakeScript.Yaml.Folding

/-!
# Quoted texts

Between single quotes a quote is written twice. Between double quotes a backslash starts an escape,
and at the end of a line it joins the line to the next one.
-/

namespace CMakeScript.Yaml.Quoted

/-- The part of a single-quoted text on a line, and the rest of the line after the closing quote. -/
def singleLine (kept : List Char) : Line → List Char × Option Line
  | [] => (kept.reverse, none)
  | '\'' :: '\'' :: rest => singleLine ('\'' :: kept) rest
  | '\'' :: rest => (kept.reverse, some rest)
  | c :: rest => singleLine (c :: kept) rest

/-- The part of a double-quoted text on a line, its escapes untouched, and the rest of the line
after the closing quote. -/
def doubleLine (kept : List Char) : Line → List Char × Option Line
  | [] => (kept.reverse, none)
  | '\\' :: c :: rest => doubleLine (c :: '\\' :: kept) rest
  | '"' :: rest => (kept.reverse, some rest)
  | c :: rest => doubleLine (c :: kept) rest

/-- The parts of a quoted text up to its closing quote. Every further line must be indented by
`least` blanks. Where the text is cut off instead, by such a line or by the end, a quote that is its
last character closes it, though it stands for itself as well. -/
def parts (onLine : Line → List Char × Option Line) (quote : Char) (least : Nat) (line : Line)
    (more : List Line) : Option (List (List Char) × Cursor) :=
  match onLine line, more with
  | (part, some rest), _ => some ([part], ⟨rest, more⟩)
  | (part, none), [] => if line.getLast? = some quote then some ([part], ⟨[], []⟩) else none
  | (part, none), next :: after =>
    if continues least next || !more.any fun line => (onLine line).2.isSome then
      (parts onLine quote least next after).map fun found => (part :: found.1, found.2)
    else if line.getLast? = some quote then some ([part], ⟨[], more⟩)
    else none

/-- The character that an escape of one letter stands for. -/
def escape? : Char → Option Nat
  | '0' => some 0x00
  | 'a' => some 0x07
  | 'b' => some 0x08
  | 'e' => some 0x1B
  | 'f' => some 0x0C
  | 'n' => some 0x0A
  | 'r' => some 0x0D
  | 't' => some 0x09
  | 'v' => some 0x0B
  | 'N' => some 0x85
  | '_' => some 0xA0
  | 'L' => some 0x2028
  | 'P' => some 0x2029
  | ' ' => some 0x20
  | '"' => some 0x22
  | '/' => some 0x2F
  | '\\' => some 0x5C
  | '\t' => some 0x09
  | _ => none

/-- The number of digits after the letter of a numeric escape. -/
def digits? : Char → Option Nat
  | 'x' => some 2
  | 'u' => some 4
  | 'U' => some 8
  | _ => none

/-- Reads a code of exactly `n` hexadecimal digits after `code`. -/
def hexCode? (code : Nat) : Nat → List Char → Option (Nat × List Char)
  | 0, rest => if code ≤ 0x10FFFF then some (code, rest) else none
  | n + 1, c :: rest => do hexCode? (16 * code + (← Text.hexDigit? c)) n rest
  | _ + 1, [] => none

/-- The codes of a part of a double-quoted text, and whether the part is joined to the next line.
White space at its end is dropped if a line end follows. `gap` holds white space that may yet turn
out to be at the end, last character first. -/
def codes (fuel : Nat) (lineEnd : Bool) (gap : List Char) (part : List Char) :
    Option (List Nat × Bool) :=
  match fuel, part with
  | _, [] => some (if lineEnd then [] else gap.reverse.map Char.toNat, false)
  | 0, _ => none
  | fuel + 1, c :: rest =>
    let before := gap.reverse.map Char.toNat
    let after (code : Nat) (rest : List Char) : Option (List Nat × Bool) :=
      (codes fuel lineEnd [] rest).map fun found => (before ++ code :: found.1, found.2)
    if isGap c then codes fuel lineEnd (c :: gap) rest
    else if c == '\\' then
      match rest with
      | [] => some (before, true)
      | letter :: rest =>
        match digits? letter with
        | some n => (hexCode? 0 n rest).bind fun found => after found.1 found.2
        | none => (escape? letter).bind fun code => after code rest
    else after c.toNat rest

/-- Where a part of a double-quoted text stands. -/
inductive Position where
  | first
  /-- After a line end and `n` empty lines. -/
  | folded (n : Nat)
  /-- After a line end that a backslash takes away. -/
  | joined

/-- The codes of the parts of a double-quoted text. -/
def foldCodes (position : Position) : List (List Char) → Option (List Nat)
  | [] => some []
  | part :: more => do
    let body := match position with
      | .first => part
      | _ => dropGap part
    match position with
    | .folded n =>
      if body.isEmpty && !more.isEmpty then foldCodes (.folded (n + 1)) more
      else
        let (found, joined) ← codes body.length (!more.isEmpty) [] body
        let rest ← foldCodes (if joined then .joined else .folded 0) more
        return (foldGap n).map Char.toNat ++ found ++ rest
    | _ =>
      let (found, joined) ← codes body.length (!more.isEmpty) [] body
      let rest ← foldCodes (if joined then .joined else .folded 0) more
      return found ++ rest

/-- The text with the given codes. A high and a low surrogate make one character; a surrogate on its
own becomes the replacement character. -/
def ofCodes : List Nat → List Char
  | [] => []
  | high :: low :: rest =>
    if 0xD800 ≤ high ∧ high < 0xDC00 ∧ 0xDC00 ≤ low ∧ low < 0xE000 then
      Char.ofNat (0x10000 + (high - 0xD800) * 0x400 + (low - 0xDC00)) :: ofCodes rest
    else if 0xD800 ≤ high ∧ high < 0xE000 then '\uFFFD' :: ofCodes (low :: rest)
    else Char.ofNat high :: ofCodes (low :: rest)
  | [code] => [if 0xD800 ≤ code ∧ code < 0xE000 then '\uFFFD' else Char.ofNat code]

def single (least : Nat) (cursor : Cursor) : Option (List Char × Cursor) := do
  let (found, after) ← parts (singleLine []) '\'' least cursor.line cursor.more
  return (foldLines found, after)

def double (least : Nat) (cursor : Cursor) : Option (List Char × Cursor) := do
  let (found, after) ← parts (doubleLine []) '"' least cursor.line cursor.more
  return (ofCodes (← foldCodes .first found), after)

end CMakeScript.Yaml.Quoted
