import CMakeScript.Proofs.Indentation
import Mathlib.Data.List.Basic

/-!
# Blocks are found again by their lines

Every line inside a block is indented or empty, so the first line that says `endif()` ends the
block, whatever texts it holds. `blocks?_platformBlocks` says that the blocks of a section are found
again, with the conditions and with the bodies as they were before they were indented.
-/

namespace CMakeScript

open Text

/-- The condition of the block that a line opens. -/
def openingLine? (line : List Char) : Option (List Char) :=
  ("if (".toList.isPrefixOf? line).bind fun rest =>
    if rest.getLast? = some ')' then some rest.dropLast else none

/-- A line of a block without its indent, which only an empty line may lack. -/
def outdent? (line : List Char) : Option (List Char) :=
  if line.isEmpty then some [] else blockIndent.toList.isPrefixOf? line

/-- The conditions and bodies of blocks, given the condition and the lines of a block that has not
been closed yet. Between blocks there are only empty lines. -/
def blocksFrom : Option (List Char × List (List Char)) → List (List Char) →
    Option (List (String × String))
  | none, [] => some []
  | some _, [] => none
  | none, line :: rest =>
    if line.isEmpty then blocksFrom none rest
    else (openingLine? line).bind fun condition => blocksFrom (some (condition, [])) rest
  | some (condition, body), line :: rest =>
    if line = "endif()".toList then
      (blocksFrom none rest).map
        ((String.ofList condition, String.ofList (join '\n' body)) :: ·)
    else (outdent? line).bind fun plain => blocksFrom (some (condition, body ++ [plain])) rest

def blocks? (text : String) : Option (List (String × String)) :=
  blocksFrom none (fields '\n' text.toList)

def indentLine (line : List Char) : List Char :=
  if line.isEmpty then line else blockIndent.toList ++ line

theorem outdent?_indentLine (line : List Char) : outdent? (indentLine line) = some line := by
  cases line with
  | nil => rfl
  | cons c rest => exact List.isPrefixOf?_eq_some_iff_append_eq.mpr rfl

theorem indentLine_ne_endif (line : List Char) : indentLine line ≠ "endif()".toList := by
  cases line with
  | nil => decide
  | cons c rest => simp [indentLine, blockIndent]

theorem fields_indentLines (text : List Char) :
    fields '\n' (indentLines blockIndent.toList text) = (fields '\n' text).map indentLine := by
  refine fields_join '\n' _ ?_ ?_
  · simpa using fields_ne_nil '\n' text
  · intro line mem
    obtain ⟨plain, inside, rfl⟩ := List.mem_map.mp mem
    have free := not_mem_of_mem_fields inside
    split
    · exact free
    · simp [free, blockIndent]

/-- The lines of a body are taken up until the line that ends the block. -/
theorem blocksFrom_body (condition : List Char) (before body rest : List (List Char)) :
    blocksFrom (some (condition, before)) (body.map indentLine ++ "endif()".toList :: rest) =
      (blocksFrom none rest).map
        ((String.ofList condition, String.ofList (join '\n' (before ++ body))) :: ·) := by
  induction body generalizing before with
  | nil =>
    rw [List.map_nil, List.nil_append, blocksFrom, if_pos rfl, List.append_nil]
  | cons line more ih =>
    have later := ih (before ++ [line])
    rw [List.append_assoc] at later
    rw [List.map_cons, List.cons_append, blocksFrom, if_neg (indentLine_ne_endif line),
      outdent?_indentLine, Option.bind_some, later]
    rfl

theorem openingLine?_if (condition : List Char) :
    openingLine? ("if (".toList ++ (condition ++ [')'])) = some condition := by
  have opened : "if (".toList.isPrefixOf? ("if (".toList ++ (condition ++ [')'])) =
      some (condition ++ [')']) := List.isPrefixOf?_eq_some_iff_append_eq.mpr rfl
  rw [openingLine?, opened]
  simp

/-- The lines of a block. The last of them is empty. -/
def blockLines (condition body : String) : List (List Char) :=
  ("if (".toList ++ (condition.toList ++ [')'])) ::
    ((fields '\n' body.toList).map indentLine ++ ["endif()".toList, []])

theorem fields_conditional {condition : String} (line : '\n' ∉ condition.toList) (body : String)
    (rest : List Char) :
    fields '\n' ((conditional condition body).toList ++ rest) =
      blockLines condition body ++ fields '\n' rest := by
  have cut : (conditional condition body).toList ++ rest =
      ("if (".toList ++ (condition.toList ++ [')'])) ++ '\n' ::
        (indentLines blockIndent.toList body.toList ++ '\n' ::
          ("endif()".toList ++ '\n' :: ('\n' :: rest))) := by
    simp [conditional]
  have first : '\n' ∉ "if (".toList ++ (condition.toList ++ [')']) := by
    simp [line]
  have last : '\n' ∉ "endif()".toList := by decide
  have blank : fields '\n' ('\n' :: rest) = [] :: fields '\n' rest := by
    simp [fields]
  rw [cut, fields_append_sep _ _ _ first, fields_append, fields_indentLines,
    fields_append_sep _ _ _ last, blank, blockLines, List.cons_append, List.append_assoc]
  rfl

theorem blocksFrom_blockLines (condition body : String) (rest : List (List Char)) :
    blocksFrom none (blockLines condition body ++ rest) =
      (blocksFrom none rest).map ((condition, body) :: ·) := by
  have opened : ("if (".toList ++ (condition.toList ++ [')'])).isEmpty = false := rfl
  have read := blocksFrom_body condition.toList [] (fields '\n' body.toList) ([] :: rest)
  rw [blockLines, List.cons_append, List.append_assoc, blocksFrom, opened,
    if_neg Bool.false_ne_true, openingLine?_if, Option.bind_some]
  refine read.trans ?_
  simp [blocksFrom, join_fields]

theorem blocks?_join {blocks : List (String × String)}
    (lines : ∀ block ∈ blocks, '\n' ∉ block.1.toList) :
    blocks? (String.join (blocks.map fun block => conditional block.1 block.2)) = some blocks := by
  induction blocks with
  | nil => rfl
  | cons block rest ih =>
    have first := lines block List.mem_cons_self
    have later := ih fun other mem => lines other (List.mem_cons_of_mem _ mem)
    rw [blocks?] at later ⊢
    rw [List.map_cons, String.join_cons, String.toList_append, fields_conditional first,
      blocksFrom_blockLines, later]
    rfl

/-- There is a block for each platform with any lines. -/
theorem platformBlocks_eq_join {α : Type} (separator : String) (lines : α → List String)
    (entries : List (Platform × α)) :
    Section.platformBlocks separator lines entries = String.join
      (((entries.filter fun entry => !(lines entry.2).isEmpty).map fun entry =>
        (entry.1.token, separator.intercalate (lines entry.2))).map
          fun block => conditional block.1 block.2) := by
  unfold Section.platformBlocks
  induction entries with
  | nil => rfl
  | cons entry rest ih =>
    rw [List.map_cons, String.join_cons, ih, List.filter_cons]
    cases empty : (lines entry.2).isEmpty <;> simp

theorem not_newline_token (p : Platform) : '\n' ∉ p.token.toList := by
  cases p <;> decide

theorem blocks?_platformBlocks {α : Type} (separator : String) (lines : α → List String)
    (entries : List (Platform × α)) :
    blocks? (Section.platformBlocks separator lines entries) =
      some ((entries.filter fun entry => !(lines entry.2).isEmpty).map fun entry =>
        (entry.1.token, separator.intercalate (lines entry.2))) := by
  rw [platformBlocks_eq_join]
  refine blocks?_join fun block mem => ?_
  obtain ⟨entry, -, rfl⟩ := List.mem_map.mp mem
  exact not_newline_token entry.1

end CMakeScript
