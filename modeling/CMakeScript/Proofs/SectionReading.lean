import CMakeScript.Name
import CMakeScript.Proofs.Program
import CMakeScript.Proofs.Rows

/-!
# Sections are read as their programs

One lemma a section: its text, whatever the texts in it hold, is read from line to line as the
directives of its program. Names must be names; messages and values may be anything.
-/

namespace CMakeScript

open Lexer Statement

/-! ### Names in unquoted arguments -/

theorem isBare_of_isNameChar {c : Char} (h : isNameChar c = true) : isBare c = true := by
  cases found : isBare c with
  | true => rfl
  | false =>
    simp only [isBare, Bool.not_eq_eq_eq_not, Bool.not_false, Bool.or_eq_true, beq_iff_eq,
      Char.isWhitespace, decide_eq_true_eq] at found
    rcases found with ((((((((rfl | rfl) | rfl) | rfl) | rfl) | rfl) | rfl) | rfl) | rfl) <;>
      exact absurd h (by decide)

theorem all_isBare_of_isName {name : String} (h : isName name = true) :
    name.toList.all isBare = true := by
  rw [isName, Bool.and_eq_true] at h
  rw [List.all_eq_true] at h ⊢
  exact fun c mem => isBare_of_isNameChar (h.2 c mem)

theorem isPlain_of_isName {name : String} (h : isName name = true) : IsPlain name := by
  refine ⟨fun empty => ?_, all_isBare_of_isName h⟩
  have nothing : name = "" := by rw [← String.ofList_toList (s := name), empty]
  subst nothing
  exact absurd h (by decide)

theorem not_mem_of_isName {name : String} (h : isName name = true) {c : Char}
    (other : isNameChar c = false) : c ∉ name.toList := by
  intro mem
  rw [isName, Bool.and_eq_true, List.all_eq_true] at h
  rw [h.2 c mem] at other
  cases other

theorem not_newline_of_isName {name : String} (h : isName name = true) : '\n' ∉ name.toList :=
  not_mem_of_isName h (by decide)

theorem all_isBare_append (a b : String) :
    (a ++ b).toList.all isBare = (a.toList.all isBare && b.toList.all isBare) := by
  simp

theorem isPlain_reference {name : String} (h : name.toList.all isBare = true) :
    IsPlain (reference name) := by
  refine ⟨by simp [reference], ?_⟩
  rw [reference, all_isBare_append, all_isBare_append, h]
  decide

/-! ### Paragraphs and blocks -/

theorem reads_paragraph {α : Type} {text : α → String} {ds : α → List Directive} (items : List α)
    (each : ∀ item ∈ items, Row (text item).toList (ds item)) :
    Reads .line (paragraph (items.map text)).toList (items.flatMap ds) .line := by
  cases items with
  | nil => exact .nil _
  | cons item rest =>
    have rows := Row.intercalate 0 (item :: rest) each
    have cut : (paragraph ((item :: rest).map text)).toList =
        (List.replicate (0 + 1) '\n').intercalate ((item :: rest).map fun i => (text i).toList) ++
          ['\n', '\n'] := by
      simp [paragraph, String.toList_intercalate, Function.comp_def]
    rw [cut]
    exact rows.paragraph

theorem reads_block {condition body : String} {arguments : List String}
    {statements : List Statement} (spelled : Spells condition.toList arguments)
    (rows : Row (Text.indentLines blockIndent.toList body.toList) (directivesOf statements)) :
    Reads .line (conditional condition body).toList
      (directives (.conditional arguments statements)) .line := by
  have cut : (conditional condition body).toList = "if (".toList ++ (condition.toList ++
      (")\n".toList ++ (Text.indentLines blockIndent.toList body.toList ++
        "\nendif()\n\n".toList))) := by
    simp [conditional]
  rw [cut]
  exact reads_conditional spelled rows

theorem indentLines_intercalate (n : Nat) (parts : List (List Char)) :
    Text.indentLines blockIndent.toList ((List.replicate (n + 1) '\n').intercalate parts) =
      (List.replicate (n + 1) '\n').intercalate
        (parts.map (Text.indentLines blockIndent.toList)) := by
  have lineEnds (k : Nat) (a b : List Char) :
      Text.indentLines blockIndent.toList (a ++ (List.replicate (k + 1) '\n' ++ b)) =
        Text.indentLines blockIndent.toList a ++
          (List.replicate (k + 1) '\n' ++ Text.indentLines blockIndent.toList b) := by
    induction k generalizing a with
    | zero => exact Text.indentLines_append _ a b
    | succ k ih =>
      have first := Text.indentLines_append blockIndent.toList a
        (List.replicate (k + 1) '\n' ++ b)
      have others := ih []
      simp only [List.nil_append, Text.indentLines_nil] at others
      rw [List.replicate_succ, List.cons_append, first, others, List.cons_append]
  induction parts with
  | nil => rfl
  | cons part rest ih =>
    cases rest with
    | nil => simp
    | cons next more =>
      simp only [List.intercalate, List.map_cons, List.intersperse_cons_cons, List.flatten_cons]
        at ih ⊢
      rw [lineEnds, ih]

/-- The blocks of the platforms for which there is something to do. -/
theorem reads_platformBlocks {α β : Type} {separator : String} (n : Nat)
    (hsep : separator.toList = List.replicate (n + 1) '\n') (parts : α → List β)
    {text : β → String} {body : β → List Statement} (entries : List (Platform × α))
    (each : ∀ entry ∈ entries, ∀ part ∈ parts entry.2,
      Row (Text.indentLines blockIndent.toList (text part).toList) (directivesOf (body part))) :
    Reads .line
      (Section.platformBlocks separator (fun a => (parts a).map text) entries).toList
      (directivesOf (Program.platformBlocks parts body entries)) .line := by
  unfold Section.platformBlocks Program.platformBlocks
  rw [String.toList_join, directivesOf_flatMap, List.flatMap_map]
  refine Reads.flatten entries fun entry mem => ?_
  by_cases empty : parts entry.2 = []
  · simp only [empty, List.map_nil, List.isEmpty_nil, if_true]
    exact .nil _
  · have rows := Row.intercalate n (parts entry.2) (each entry mem)
    have token : Spells entry.1.token.toList [entry.1.token] :=
      spells_plain (by cases entry.1 <;> decide)
    have inside : Row (Text.indentLines blockIndent.toList
        (separator.intercalate ((parts entry.2).map text)).toList)
        (directivesOf ((parts entry.2).flatMap body)) := by
      rw [String.toList_intercalate, hsep, indentLines_intercalate, directivesOf_flatMap]
      simpa [Function.comp_def] using rows
    have block := reads_block token inside
    simpa [empty, directivesOf] using block

/-! ### The sections -/

theorem toList_fatalError (message : String) : (fatalError message).toList =
    "message".toList ++
      '(' :: (("FATAL_ERROR".toList ++ ' ' :: (Argument.quote message).toList) ++ [')']) := by
  unfold fatalError
  generalize Argument.quote message = quoted
  simp

theorem row_fatalError (message : String) :
    Row (fatalError message).toList (directivesOf [Program.fatal message]) := by
  have kind : Spells "FATAL_ERROR".toList ["FATAL_ERROR"] := spells_plain (by decide)
  have command : IsCommand "message" := by decide
  have reading := reads_directive command (kind.space (spells_quote message))
  rw [toList_fatalError]
  exact reading.row

theorem reads_errors (messages : List String) :
    Reads .line (Section.errors messages).toList (directivesOf (Program.errors messages))
      .line := by
  have each (message : String) : Reads .line (fatalError message ++ "\n\n").toList
      (directivesOf [Program.fatal message]) .line := by
    have whole := (row_fatalError message).paragraph
    rw [String.toList_append]
    exact whole
  unfold Section.errors Program.errors
  rw [String.toList_join, List.flatMap_map, directivesOf_map]
  exact Reads.flatten messages fun message _ => each message

theorem not_newline_fatalError {message : String} (h : '\n' ∉ message.toList) :
    '\n' ∉ (fatalError message).toList := by
  have escaped : '\n' ∉ message.toList.flatMap Argument.escapeChar := by
    intro mem
    obtain ⟨c, inside, found⟩ := List.mem_flatMap.mp mem
    have ne : c ≠ '\n' := fun same => h (same ▸ inside)
    obtain ⟨d, rest, cut, hd, hrest⟩ := Argument.head?_escapeChar ne
    rw [cut] at found
    rcases List.mem_cons.mp found with same | later
    · exact hd same.symm
    · exact hrest later
  rw [toList_fatalError, Argument.toList_quote]
  simp [escaped]

/-- A guard that stops CMake with a message of one line. -/
theorem reads_guard {condition message : String} {arguments : List String}
    (spelled : Spells condition.toList arguments) (h : '\n' ∉ message.toList) :
    Reads .line (conditional condition (fatalError message)).toList
      (directivesOf [.conditional arguments [Program.fatal message]]) .line := by
  have row : Row (Text.indentLines blockIndent.toList (fatalError message).toList)
      (directivesOf [Program.fatal message]) := by
    rw [Text.indentLines_line _ _ (not_newline_fatalError h)]
    · exact (row_fatalError message).indented
    · rw [toList_fatalError]
      exact List.append_ne_nil_of_right_ne_nil _ (List.cons_ne_nil _ _)
  have block := reads_block spelled row
  rwa [← List.append_nil (directives _)] at block

theorem spells_token (p : Platform) : Spells p.token.toList [p.token] :=
  spells_plain (by cases p <;> decide)

theorem reads_exclusions (platforms : List Platform) :
    Reads .line (Section.exclusions platforms).toList
      (directivesOf (Program.exclusions platforms)) .line := by
  have line : '\n' ∉
      "Unsupported platform (your platform was explicitly marked as not supported)".toList := by
    rw [toList_of_eq_ofList rfl]
    decide
  unfold Section.exclusions Program.exclusions
  rw [String.toList_join, List.flatMap_map, directivesOf_map]
  exact Reads.flatten platforms fun p _ => reads_guard (spells_token p) line

theorem spells_noneOf (platforms : List Platform) :
    Spells (Section.noneOf platforms).toList (Program.noneOf platforms) := by
  have none : Spells "NOT".toList ["NOT"] := spells_plain (by decide)
  have and : Spells "AND".toList ["AND"] := spells_plain (by decide)
  unfold Section.noneOf
  induction platforms with
  | nil => exact .nil
  | cons p rest ih =>
    have literal := none.space (spells_token p)
    cases rest with
    | nil => simpa [Program.noneOf] using literal
    | cons next more =>
      have longer := literal.space (and.space ih)
      simpa [Program.noneOf] using longer

theorem reads_restriction (platforms : List Platform) :
    Reads .line (Section.restriction platforms).toList
      (directivesOf (Program.restriction platforms)) .line := by
  have line : '\n' ∉
      "Unsupported platform (your platform is not in list of supported platforms)".toList := by
    rw [toList_of_eq_ofList rfl]
    decide
  unfold Section.restriction Program.restriction
  split
  · exact .nil _
  · exact reads_guard (spells_noneOf platforms) line

/-! ### Variables -/

theorem row_setCommand {name : String} (h : isName name = true) (items : List String) :
    Row (setCommand name (Argument.renderList items)).toList
      (directivesOf [Program.assignment name items]) := by
  have command : IsCommand "set" := by decide
  have arguments := (spells_plain (isPlain_of_isName h)).space (spells_renderList items)
  have cut : (setCommand name (Argument.renderList items)).toList = "set".toList ++
      '(' :: ((name.toList ++ ' ' :: (Argument.renderList items).toList) ++ [')']) := by
    unfold setCommand
    generalize Argument.renderList items = value
    simp
  rw [cut]
  exact (reads_directive command arguments).row

theorem reads_bindings {entries : List (String × List String)}
    (h : ∀ entry ∈ entries, isName entry.1 = true) :
    Reads .line (Section.bindings (written entries)).toList
      (directivesOf (Program.assignments entries)) .line := by
  unfold Section.bindings Section.setCommands written Program.assignments
  rw [List.map_map, directivesOf_map]
  exact reads_paragraph entries fun entry mem => row_setCommand (h entry mem) entry.2

theorem reads_platformBindings {entries : List (Platform × List (String × List String))}
    (h : ∀ entry ∈ entries, ∀ binding ∈ entry.2, isName binding.1 = true) :
    Reads .line
      (Section.platformBindings (entries.map fun entry => (entry.1, written entry.2))).toList
      (directivesOf (Program.platformAssignments entries)) .line := by
  have cut : Section.platformBindings (entries.map fun entry => (entry.1, written entry.2)) =
      Section.platformBlocks "\n" (fun bindings => (id bindings).map fun binding =>
        setCommand binding.1 (Argument.renderList binding.2)) entries := by
    simp [Section.platformBindings, Section.platformBlocks, Section.setCommands, written,
      Function.comp_def]
  rw [cut]
  refine reads_platformBlocks 0 rfl id entries fun entry mem binding inside => ?_
  have name := h entry mem binding inside
  rw [indentLines_setCommand (not_newline_of_isName name)]
  exact (row_setCommand name _).indented

end CMakeScript
