import CMakeScript.Proofs.Indentation
import CMakeScript.Proofs.Spelling
import CMakeScript.Proofs.Statement

/-!
# Rows of directives

A row is a text that could be a script of its own, so rows between line ends are read one by one.
`reads_conditional` puts indented rows into a block.
-/

namespace CMakeScript

/-- The text of a directive whose arguments are all unquoted. -/
def Directive.text (d : Directive) : String :=
  d.name ++ "(" ++ " ".intercalate d.arguments ++ ")"

namespace Lexer

/-- The text can stand alone as a script that consists of the directives. -/
def Row (text : List Char) (directives : List Directive) : Prop :=
  ∃ m, Reads .line text directives m ∧ m.isFinal = true

theorem Row.nil : Row [] [] := ⟨.line, .nil _, rfl⟩

theorem Reads.row {text : List Char} {ds : List Directive} (h : Reads .line text ds .done) :
    Row text ds := ⟨.done, h, rfl⟩

theorem Row.newline {a b : List Char} {xs ys : List Directive} {m : Mode} (first : Row a xs)
    (second : Reads .line b ys m) : Reads .line (a ++ '\n' :: b) (xs ++ ys) m := by
  obtain ⟨n, reading, final⟩ := first
  have lineEnd : step n '\n' = some (.line, none) := by
    cases n with
    | line | comment | done => decide
    | _ => simp [Mode.isFinal] at final
  exact reading.append (.cons lineEnd second)

theorem Row.append {a b : List Char} {xs ys : List Directive} (first : Row a xs)
    (second : Row b ys) : Row (a ++ '\n' :: b) (xs ++ ys) := by
  obtain ⟨m, reading, final⟩ := second
  exact ⟨m, first.newline reading, final⟩

theorem Row.indented {text : List Char} {ds : List Directive} (h : Row text ds) :
    Row (blockIndent.toList ++ text) ds := by
  obtain ⟨m, reading, final⟩ := h
  have blanks : Reads .line blockIndent.toList [] .line := by decide
  exact ⟨m, blanks.append reading, final⟩

theorem Row.paragraph {text : List Char} {ds : List Directive} (h : Row text ds) :
    Reads .line (text ++ ['\n', '\n']) ds .line := by
  have blank : Reads .line ['\n'] [] .line := Row.nil.newline (.nil .line)
  have whole := h.newline blank
  rwa [List.append_nil] at whole

/-- Row after row, with the same number of line ends between any two. -/
theorem Row.intercalate {α : Type} {text : α → List Char} {ds : α → List Directive} (n : Nat)
    (items : List α) (each : ∀ item ∈ items, Row (text item) (ds item)) :
    Row ((List.replicate (n + 1) '\n').intercalate (items.map text)) (items.flatMap ds) := by
  have ends {b : List Char} {ys : List Directive} (second : Row b ys) (k : Nat) :
      Row (List.replicate k '\n' ++ b) ys := by
    induction k with
    | zero => exact second
    | succ k ih => exact Row.nil.append ih
  induction items with
  | nil => exact .nil
  | cons item rest ih =>
    have first := each item List.mem_cons_self
    cases rest with
    | nil => simpa using first
    | cons next more =>
      have others := ih fun other mem => each other (List.mem_cons_of_mem _ mem)
      have whole := first.append (ends others n)
      simpa [List.intercalate, List.replicate_succ] using whole

theorem row_text {d : Directive} (hname : IsCommand d.name)
    (h : ∀ word ∈ d.arguments, IsPlain word) : Row d.text.toList [d] := by
  have reading := reads_directive hname (spells_words h)
  have cut : d.text.toList =
      d.name.toList ++ '(' :: ((" ".intercalate d.arguments).toList ++ [')']) := by
    simp [Directive.text]
  rw [cut]
  exact reading.row

theorem not_newline_text {d : Directive} (hname : IsCommand d.name)
    (h : ∀ word ∈ d.arguments, IsPlain word) : '\n' ∉ d.text.toList := by
  have name : '\n' ∉ d.name.toList := fun mem =>
    absurd (List.all_eq_true.mp hname.2 _ mem) (by decide)
  have words : '\n' ∉ (" ".intercalate d.arguments).toList := by
    intro mem
    obtain between | ⟨word, inside, found⟩ := Text.mem_of_mem_intercalate mem
    · exact absurd between (by decide)
    · exact absurd (List.all_eq_true.mp (h word inside).2 _ found) (by decide)
  rw [Directive.text]
  simp only [String.toList_append, List.mem_append, not_or]
  exact ⟨⟨⟨name, by decide⟩, words⟩, by decide⟩

/-- A row of one line. -/
structure Line (text : List Char) (directives : List Directive) : Prop where
  row : Row text directives
  single : '\n' ∉ text

theorem Line.nil : Line [] [] := ⟨.nil, List.not_mem_nil⟩

theorem line_text {d : Directive} (hname : IsCommand d.name)
    (h : ∀ word ∈ d.arguments, IsPlain word) : Line d.text.toList [d] :=
  ⟨row_text hname h, not_newline_text hname h⟩

theorem Line.indented {text : List Char} {ds : List Directive} (h : Line text ds) :
    Line (blockIndent.toList ++ text) ds :=
  ⟨h.row.indented, fun mem => by
    rcases List.mem_append.mp mem with blank | inside
    · exact absurd blank (by decide)
    · exact h.single inside⟩

theorem Line.indentLines {text : List Char} {ds : List Directive} (h : Line text ds) :
    Row (Text.indentLines blockIndent.toList text) ds := by
  by_cases empty : text = []
  · subst empty
    exact h.row
  · rw [Text.indentLines_line _ empty h.single]
    exact h.row.indented

open Statement in
/-- A block is read as its condition and the rows inside. -/
theorem reads_conditional {condition : String} {arguments : List String} {body : List Char}
    {statements : List Statement} (spelled : Spells condition.toList arguments)
    (rows : Row body (directivesOf statements)) :
    Reads .line ("if (".toList ++ (condition.toList ++ (")\n".toList ++
        (body ++ "\nendif()\n\n".toList))))
      (directives (.conditional arguments statements)) .line := by
  obtain ⟨m, reading, settled⟩ := spelled ⟨"if", []⟩
  have opening : Reads .line "if (".toList [] (.gap ⟨"if", []⟩) := rfl
  have paren : step (.gap ⟨"if", arguments⟩) ')' = some (.done, some ⟨"if", arguments⟩) := rfl
  have lineEnd : step .done '\n' = some (.line, none) := rfl
  have closing : Reads .line "endif()\n\n".toList [⟨"endif", []⟩] .line := by decide
  have inside := rows.newline closing
  have condEnd : Reads m.settle (')' :: '\n' :: (body ++ '\n' :: "endif()\n\n".toList))
      (⟨"if", arguments⟩ :: (directivesOf statements ++ [⟨"endif", []⟩])) .line := by
    rw [settled]
    exact .cons paren (.cons lineEnd inside)
  have whole := opening.append (reading.append (condEnd.settle (by decide)))
  exact whole

end Lexer

end CMakeScript
