import CMakeScript.Proofs.SectionReading

/-!
# Directives with the text they are written in

`rows` reads a text as the lexer does and keeps for each directive the characters from its name to
its closing parenthesis. So a command that sets a variable can be taken apart into the variable and
the text of its value, as it is written: `assignments?_setCommands`.
-/

namespace CMakeScript.Lexer

/-- The directives of a text, each with the characters that it is written in. -/
def rows : Mode → List Char → List Char → Option (List (Directive × List Char))
  | m, _, [] => if m.isFinal then some [] else none
  | m, before, c :: rest =>
    (step m c).bind fun result =>
      (rows result.1 (if result.1.isFinal then [] else before ++ [c]) rest).map fun later =>
        (result.2.map fun d => (d, before ++ [c])).toList ++ later

/-- Only with its closing parenthesis a directive comes to an end. -/
theorem isFinal_of_step {m n : Mode} {c : Char} (inside : m.isFinal = false)
    (h : step m c = some (n, none)) : n.isFinal = false := by
  cases m with
  | line | comment | done => cases inside
  | _ =>
    simp only [step, separate] at h
    (repeat' split at h) <;> cases h <;> rfl

theorem rows_inside {m n : Mode} {text : List Char} (inside : m.isFinal = false)
    (h : Reads m text [] n) (before rest : List Char) :
    rows m before (text ++ rest) = rows n (before ++ text) rest := by
  induction text generalizing m before with
  | nil =>
    cases h
    rw [List.nil_append, List.append_nil]
  | cons c more ih =>
    obtain ⟨k, next, reading⟩ := h.of_cons
    have still := isFinal_of_step inside next
    have later := ih still reading (before ++ [c])
    rw [List.append_assoc] at later
    rw [List.cons_append, rows, next, Option.bind_some, still, if_neg Bool.false_ne_true, later]
    simp

theorem rows_newline {m : Mode} (final : m.isFinal = true) (before rest : List Char) :
    rows m before ('\n' :: rest) = rows .line [] rest := by
  have next : step m '\n' = some (.line, none) := by
    cases m with
    | line | comment | done => decide
    | _ => simp [Mode.isFinal] at final
  rw [rows, next, Option.bind_some]
  simp [Mode.isFinal]

theorem rows_directive {name : String} {text : List Char} {arguments : List String}
    (hname : IsCommand name) (h : Spells text arguments) (rest : List Char) :
    rows .line [] (name.toList ++ '(' :: (text ++ ')' :: rest)) =
      (rows .done [] rest).map
        ((⟨name, arguments⟩, name.toList ++ '(' :: (text ++ [')'])) :: ·) := by
  obtain ⟨m, reading, settled⟩ := reads_open hname h
  obtain ⟨ne, all⟩ := hname
  obtain ⟨c, more, cut⟩ := List.exists_cons_of_ne_nil ne
  rw [cut, List.all_cons, Bool.and_eq_true] at all
  have first := step_line_of_isWord all.1
  rw [cut, List.cons_append] at reading
  obtain ⟨k, next, inside⟩ := reading.of_cons
  rw [first] at next
  cases next
  -- The name has been entered with its first character, and from there nothing ends before `)`.
  have whole := rows_inside rfl inside [c] (')' :: rest)
  simp only [List.append_assoc, List.cons_append, List.nil_append] at whole
  rw [cut, List.cons_append, rows, first, Option.bind_some]
  simp only [Mode.isFinal, Bool.false_eq_true, if_false, List.nil_append]
  rw [whole, rows, step_closing settled, Option.bind_some]
  simp [Mode.isFinal, Function.comp_def]

end CMakeScript.Lexer

namespace CMakeScript

open Lexer

/-! ### Commands that set variables -/

/-- What is written behind the first argument of a command. -/
def valueText (row : List Char) : List Char :=
  let arguments := ((row.dropWhile (· != '(')).drop 1).dropWhile Char.isWhitespace
  ((arguments.dropWhile fun c => !c.isWhitespace).drop 1).dropLast

/-- The variable that a command sets, and the text of the value. -/
def assignment? (row : Directive × List Char) : Option (String × String) :=
  if row.1.name = "set" then row.1.arguments.head?.map (·, String.ofList (valueText row.2))
  else none

def assignments? (text : String) : Option (List (String × String)) :=
  (rows .line [] text.toList).bind (List.mapM assignment?)

def bindingRow (entry : String × List String) : Directive × List Char :=
  (⟨"set", entry.1 :: entry.2⟩, (setCommand entry.1 (Argument.renderList entry.2)).toList)

theorem toList_setCommand (name value : String) : (setCommand name value).toList =
    "set".toList ++ '(' :: ((name.toList ++ ' ' :: value.toList) ++ [')']) := by
  simp [setCommand]

theorem rows_setCommand {entry : String × List String} (named : isName entry.1 = true)
    (rest : List Char) :
    rows .line []
        ((setCommand entry.1 (Argument.renderList entry.2)).toList ++ rest) =
      (rows .done [] rest).map (bindingRow entry :: ·) := by
  have command : IsCommand "set" := by decide
  have arguments := (spells_plain (isPlain_of_isName named)).space (spells_renderList entry.2)
  have reading := rows_directive command arguments rest
  rw [bindingRow, toList_setCommand]
  simpa using reading

theorem rows_setCommands {entries : List (String × List String)} (ne : entries ≠ [])
    (named : ∀ entry ∈ entries, isName entry.1 = true) (rest : List Char) :
    rows .line []
        (("\n".intercalate (Section.setCommands (written entries))).toList ++ rest) =
      (rows .done [] rest).map (entries.map bindingRow ++ ·) := by
  induction entries with
  | nil => exact absurd rfl ne
  | cons entry more ih =>
    have first := rows_setCommand (named entry List.mem_cons_self)
    cases more with
    | nil => simpa [Section.setCommands, written] using first rest
    | cons next others =>
      have later := ih (by simp) fun other mem => named other (List.mem_cons_of_mem _ mem)
      have lineEnd := rows_newline (m := .done) rfl []
      have cut : ("\n".intercalate (Section.setCommands
          (written (entry :: next :: others)))).toList ++ rest =
          (setCommand entry.1 (Argument.renderList entry.2)).toList ++ '\n' ::
            (("\n".intercalate (Section.setCommands (written (next :: others)))).toList ++
              rest) := by
        simp [Section.setCommands, written, String.toList_intercalate, List.intercalate]
      rw [cut, first, lineEnd, later, Option.map_map]
      rfl

theorem valueText_setCommand {name : String} (named : isName name = true) (value : String) :
    valueText (setCommand name value).toList = value.toList := by
  have plain := isPlain_of_isName named
  obtain ⟨c, more, cut⟩ := List.exists_cons_of_ne_nil plain.1
  have solid : ∀ d ∈ name.toList, d.isWhitespace = false := by
    intro d mem
    have bare := List.all_eq_true.mp plain.2 d mem
    cases white : d.isWhitespace with
    | false => rfl
    | true => simp [isBare, white] at bare
  have opened : ((setCommand name value).toList.dropWhile (· != '(')).drop 1 =
      name.toList ++ ' ' :: (value.toList ++ [')']) := by
    rw [toList_setCommand]
    simp
  have start : (name.toList ++ ' ' :: (value.toList ++ [')'])).dropWhile Char.isWhitespace =
      name.toList ++ ' ' :: (value.toList ++ [')']) := by
    rw [cut, List.cons_append, List.dropWhile_cons, solid c (by simp [cut])]
    rfl
  have behind : (name.toList ++ ' ' :: (value.toList ++ [')'])).dropWhile
      (fun c => !c.isWhitespace) = ' ' :: (value.toList ++ [')']) := by
    rw [List.dropWhile_append_of_pos (by simpa using solid)]
    rfl
  rw [valueText, opened]
  simp only [start, behind]
  simp

theorem assignment?_bindingRow {entry : String × List String} (named : isName entry.1 = true) :
    assignment? (bindingRow entry) = some (entry.1, Argument.renderList entry.2) := by
  simp [assignment?, bindingRow, valueText_setCommand named]

theorem mapM_map {α β γ : Type} {f : β → Option γ} {g : α → β} {h : α → γ} {items : List α}
    (each : ∀ item ∈ items, f (g item) = some (h item)) :
    (items.map g).mapM f = some (items.map h) := by
  induction items with
  | nil => rfl
  | cons item rest ih =>
    have others := ih fun other mem => each other (List.mem_cons_of_mem _ mem)
    rw [List.map_cons, List.mapM_cons, each item List.mem_cons_self, others]
    rfl

/-- The commands that set variables are taken apart again, at the end of a text or with the end of
a paragraph behind them. -/
theorem assignments?_setCommands {entries : List (String × List String)} (ne : entries ≠ [])
    (named : ∀ entry ∈ entries, isName entry.1 = true) (rest : String)
    (ends : rows .done [] rest.toList = some []) :
    assignments? ("\n".intercalate (Section.setCommands (written entries)) ++ rest) =
      some (written entries) := by
  have reading := rows_setCommands ne named rest.toList
  have apart : (entries.map bindingRow).mapM assignment? = some (written entries) :=
    mapM_map fun entry mem => assignment?_bindingRow (named entry mem)
  rw [assignments?, String.toList_append, reading, ends]
  simpa using apart

theorem assignments?_bindings {entries : List (String × List String)}
    (named : ∀ entry ∈ entries, isName entry.1 = true) :
    assignments? (Section.bindings (written entries)) = some (written entries) := by
  cases entries with
  | nil => rfl
  | cons entry more =>
    exact assignments?_setCommands (List.cons_ne_nil _ _) named "\n\n" rfl

end CMakeScript
