import CMakeScript.Argument

/-!
# The lexical grammar of scripts

CMake reads a script as comments and directives, and the arguments of a directive as quoted or
unquoted ones. Bracket arguments and parentheses inside parentheses are left aside: the second are
refused. `scan` reads a character at a time, so `scan_append` takes any reading apart at any place.
-/

namespace CMakeScript

/-- A directive of a script: a command with its arguments, quotes and escapes undone. -/
structure Directive where
  name : String
  arguments : List String
  deriving DecidableEq, Repr

def Directive.add (d : Directive) (arguments : List String) : Directive :=
  { d with arguments := d.arguments ++ arguments }

namespace Lexer

/-- What the next character continues. -/
inductive Mode where
  /-- A line on which nothing has been read yet. -/
  | line
  | comment
  /-- The name of a directive. -/
  | word (name : List Char)
  /-- The blanks between the name of a directive and its parenthesis. -/
  | named (name : List Char)
  /-- A directive before its next argument. -/
  | gap (d : Directive)
  /-- A comment between arguments. -/
  | remark (d : Directive)
  | bare (d : Directive) (text : List Char)
  | quoted (d : Directive) (text : List Char)
  | escaped (d : Directive) (text : List Char)
  /-- A directive right behind a closing quote. -/
  | closed (d : Directive)
  /-- The rest of the line behind a directive. -/
  | done
  deriving DecidableEq, Repr

def isWord (c : Char) : Bool := c.isAlphanum || c == '_'

def isIndent (c : Char) : Bool := c.isWhitespace && c != '\n'

def isBare (c : Char) : Bool :=
  !(c.isWhitespace || c == '(' || c == ')' || c == '#' || c == '"' || c == '\\')

/-- An argument ends: white space, a comment or the end of the directive must follow. -/
def separate (d : Directive) (c : Char) : Option (Mode × Option Directive) :=
  if c.isWhitespace then some (.gap d, none)
  else if c = ')' then some (.done, some d)
  else if c = '#' then some (.remark d, none)
  else none

/-- One character read, with the directive that it completes. -/
def step : Mode → Char → Option (Mode × Option Directive)
  | .line, c =>
    if c.isWhitespace then some (.line, none)
    else if c = '#' then some (.comment, none)
    else if isWord c then some (.word [c], none)
    else none
  | .comment, c => some (if c = '\n' then .line else .comment, none)
  | .word name, c =>
    if isWord c then some (.word (name ++ [c]), none)
    else if c = '(' then some (.gap ⟨String.ofList name, []⟩, none)
    else if isIndent c then some (.named name, none)
    else none
  | .named name, c =>
    if c = '(' then some (.gap ⟨String.ofList name, []⟩, none)
    else if isIndent c then some (.named name, none)
    else none
  | .gap d, c =>
    if c = '"' then some (.quoted d [], none)
    else if isBare c then some (.bare d [c], none)
    else separate d c
  | .remark d, c => some (if c = '\n' then .gap d else .remark d, none)
  | .bare d text, c =>
    if isBare c then some (.bare d (text ++ [c]), none)
    else separate (d.add [String.ofList text]) c
  | .quoted d text, c =>
    if c = '"' then some (.closed (d.add [String.ofList text]), none)
    else if c = '\\' then some (.escaped d text, none)
    else some (.quoted d (text ++ [c]), none)
  | .escaped d text, c => some (.quoted d (text ++ [c]), none)
  | .closed d, c => separate d c
  | .done, c =>
    if c = '\n' then some (.line, none)
    else if c = '#' then some (.comment, none)
    else if isIndent c then some (.done, none)
    else none

def scan : Mode → List Char → Option (List Directive × Mode)
  | m, [] => some ([], m)
  | m, c :: rest =>
    match step m c with
    | none => none
    | some (next, directive?) =>
      (scan next rest).map fun result => (directive?.toList ++ result.1, result.2)

def Mode.isFinal : Mode → Bool
  | line | comment | done => true
  | _ => false

def read (script : String) : Option (List Directive) :=
  match scan .line script.toList with
  | some (directives, last) => if last.isFinal then some directives else none
  | none => none

theorem scan_append (m : Mode) (a b : List Char) :
    scan m (a ++ b) = (scan m a).bind fun first =>
      (scan first.2 b).map fun second => (first.1 ++ second.1, second.2) := by
  induction a generalizing m with
  | nil => simp [scan]
  | cons c rest ih =>
    rw [List.cons_append, scan, scan]
    cases step m c with
    | none => rfl
    | some result =>
      dsimp only
      rw [ih]
      cases scan result.1 rest with
      | none => rfl
      | some first => simp [Option.map_map, Function.comp_def, List.append_assoc]

/-- From the first mode the text is read as the directives and leads to the last mode. -/
def Reads (first : Mode) (text : List Char) (directives : List Directive) (last : Mode) : Prop :=
  scan first text = some (directives, last)

instance (m n : Mode) (text : List Char) (ds : List Directive) : Decidable (Reads m text ds n) :=
  inferInstanceAs (Decidable (_ = _))

/-- The characters of a fixed text, which unification spells out faster than evaluation does. -/
theorem toList_of_eq_ofList {s : String} {text : List Char} (h : s = String.ofList text) :
    s.toList = text := by
  rw [h, String.toList_ofList]

theorem Reads.nil (m : Mode) : Reads m [] [] m := rfl

theorem Reads.append {m n k : Mode} {a b : List Char} {xs ys : List Directive}
    (first : Reads m a xs n) (second : Reads n b ys k) : Reads m (a ++ b) (xs ++ ys) k := by
  unfold Reads at first second ⊢
  rw [scan_append, first]
  simp [second]

theorem Reads.cons {m n k : Mode} {c : Char} {rest : List Char} {out : Option Directive}
    {ys : List Directive} (first : step m c = some (n, out)) (second : Reads n rest ys k) :
    Reads m (c :: rest) (out.toList ++ ys) k := by
  unfold Reads at second ⊢
  rw [scan, first]
  simp [second]

/-- Where no directive is completed, none is by the first character. -/
theorem Reads.of_cons {m n : Mode} {c : Char} {rest : List Char} (h : Reads m (c :: rest) [] n) :
    ∃ k, step m c = some (k, none) ∧ Reads k rest [] n := by
  unfold Reads at h ⊢
  rw [scan] at h
  cases next : step m c with
  | none => simp [next] at h
  | some result =>
    obtain ⟨k, out⟩ := result
    simp only [next, Option.map_eq_some_iff, Prod.mk.injEq, List.append_eq_nil_iff] at h
    obtain ⟨⟨directives, last⟩, reading, ⟨silent, rfl⟩, rfl⟩ := h
    rw [Option.toList_eq_nil_iff] at silent
    exact ⟨k, by rw [silent], reading⟩

theorem Reads.flatten {α : Type} {text : α → List Char} {directives : α → List Directive}
    (items : List α)
    (each : ∀ item ∈ items, Reads .line (text item) (directives item) .line) :
    Reads .line (items.flatMap text) (items.flatMap directives) .line := by
  induction items with
  | nil => exact .nil _
  | cons item rest ih =>
    rw [List.flatMap_cons, List.flatMap_cons]
    have first := each item List.mem_cons_self
    exact first.append (ih fun other mem => each other (List.mem_cons_of_mem _ mem))

theorem Reads.read {script : String} {directives : List Directive} {last : Mode}
    (h : Reads .line script.toList directives last) (final : last.isFinal = true) :
    read script = some directives := by
  unfold Reads at h
  rw [Lexer.read, h]
  exact if_pos final

/-- Only where a script may end does a line end lead to a new line. -/
theorem isFinal_of_newline {m : Mode} {out : Option Directive}
    (h : step m '\n' = some (.line, out)) : m.isFinal = true ∧ out = none := by
  cases m <;> simp [step, separate, isWord, isIndent, isBare, Mode.isFinal] at h ⊢ <;> exact h.symm

/-- A line end at the end of a script changes nothing. -/
theorem read_of_append_newline {text : List Char} {directives : List Directive}
    (h : Reads .line (text ++ ['\n']) directives .line) :
    read (String.ofList text) = some directives := by
  unfold Reads at h
  rw [scan_append] at h
  cases found : scan .line text with
  | none => simp [found] at h
  | some result =>
    obtain ⟨before, m⟩ := result
    rw [found, Option.bind_some] at h
    cases newline : step m '\n' with
    | none => simp [scan, newline] at h
    | some next =>
      obtain ⟨n, out⟩ := next
      simp only [scan, newline, Option.map_some, Option.some.injEq, Prod.mk.injEq,
        List.append_nil] at h
      obtain ⟨rfl, rfl⟩ := h
      obtain ⟨final, rfl⟩ := isFinal_of_newline newline
      simp [read, found, final]

end Lexer

end CMakeScript
