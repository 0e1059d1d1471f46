import CMakeScript.Proofs.Blocks

/-!
# The lines of a block

A block can be taken apart by its lines: the first one has the condition, the indented ones after
it are the body, and no line of the body can be taken for an opening or a closing one.
`conditional_taken_apart` says so, whatever the body is, and that a text of blocks has only one list
of conditions and bodies.
-/

namespace CMakeScript

open Text

/-- The lines of a body as they stand inside a block. -/
def innerLines (body : String) : List (List Char) :=
  (fields '\n' body.toList).map fun text => if text = [] then [] else "    ".toList ++ text

theorem innerLines_eq (body : String) :
    innerLines body = (fields '\n' body.toList).map indentLine := by
  refine List.map_congr_left fun text _ => ?_
  cases text <;> rfl

theorem join_drop_innerLines (body : String) :
    join '\n' ((innerLines body).map (·.drop 4)) = body.toList := by
  have plain : (·.drop 4) ∘ indentLine = id := by
    funext text
    cases text <;> rfl
  rw [innerLines_eq, List.map_map, plain, List.map_id, join_fields]

theorem inside_of_mem_innerLines {body : String} {text : List Char} (mem : text ∈ innerLines body) :
    text ≠ "endif()".toList ∧ ¬"if (".toList <+: text := by
  rw [innerLines_eq] at mem
  obtain ⟨plain, -, rfl⟩ := List.mem_map.mp mem
  refine ⟨indentLine_ne_endif plain, ?_⟩
  -- An empty line has no indent, but it opens no block either.
  cases plain with
  | nil => decide
  | cons c rest =>
    intro opened
    have first := (List.cons_prefix_cons.mp opened).1
    exact absurd first (by decide)

theorem fields_block {condition : String} (line : '\n' ∉ condition.toList) (body : String) :
    fields '\n' (conditional condition body).toList =
      ("if (" ++ condition ++ ")").toList :: (innerLines body ++ ["endif()".toList, [], []]) := by
  have whole := fields_conditional line body []
  rw [List.append_nil] at whole
  rw [whole, innerLines_eq]
  simp [blockLines, fields]

/-- What only one member of a list has is found in its place only. -/
theorem iff_place {α : Type} {p : α → Prop} {before after : List α} {a : α} (own : p a)
    (earlier : ∀ b ∈ before, ¬p b) (later : ∀ b ∈ after, ¬p b) {place : Nat} {b : α}
    (found : (before ++ a :: after)[place]? = some b) : p b ↔ place = before.length := by
  obtain less | rfl | greater := Nat.lt_trichotomy place before.length
  · rw [List.getElem?_append_left less] at found
    have other := earlier b (List.mem_of_getElem? found)
    exact iff_of_false other (Nat.ne_of_lt less)
  · rw [List.getElem?_append_right (Nat.le_refl _), Nat.sub_self] at found
    obtain rfl := Option.some.inj found
    exact iff_of_true own rfl
  · obtain ⟨more, rfl⟩ := Nat.exists_eq_add_of_lt greater
    rw [List.getElem?_append_right (by omega),
      show before.length + more + 1 - before.length = more + 1 by omega] at found
    have other := later b (List.mem_of_getElem? (i := more) found)
    exact iff_of_false other (by omega)

section Places

variable {condition body : String} {place : Nat} {text : List Char}
  (line : '\n' ∉ condition.toList)
  (found : (fields '\n' (conditional condition body).toList)[place]? = some text)

include line found

theorem closing_iff : text = "endif()".toList ↔ place = (innerLines body).length + 1 := by
  have earlier : ∀ other ∈ ("if (" ++ condition ++ ")").toList :: innerLines body,
      other ≠ "endif()".toList := by
    intro other mem
    obtain rfl | inside := List.mem_cons.mp mem
    · simp
    · exact (inside_of_mem_innerLines inside).1
  rw [fields_block line, ← List.cons_append] at found
  exact iff_place (p := (· = "endif()".toList)) rfl earlier (by decide) found

theorem opening_iff : "if (".toList <+: text ↔ place = 0 := by
  have last : ∀ other ∈ ["endif()".toList, [], []], ¬"if (".toList <+: other := by decide
  have later : ∀ other ∈ innerLines body ++ ["endif()".toList, [], []],
      ¬"if (".toList <+: other := by
    intro other mem
    obtain inside | behind := List.mem_append.mp mem
    · exact (inside_of_mem_innerLines inside).2
    · exact last other behind
  have own : "if (".toList <+: ("if (" ++ condition ++ ")").toList := by
    rw [String.toList_append, String.toList_append, List.append_assoc]
    exact List.prefix_append _ _
  rw [fields_block line, ← List.nil_append (_ :: _)] at found
  exact iff_place (p := ("if (".toList <+: ·)) own (fun _ mem => absurd mem List.not_mem_nil)
    later found

end Places

theorem join_conditional_inj {blocks others : List (String × String)}
    (lines : ∀ block ∈ blocks ++ others, '\n' ∉ block.1.toList)
    (same : String.join (blocks.map fun block => conditional block.1 block.2) =
      String.join (others.map fun block => conditional block.1 block.2)) : blocks = others := by
  have one := blocks?_join fun block mem => lines block (List.mem_append_left _ mem)
  have two := blocks?_join fun block mem => lines block (List.mem_append_right _ mem)
  rw [same, two] at one
  exact (Option.some.inj one).symm

/-- A block is an opening line with the condition, the lines of the body, which are indented unless
they are empty, a closing line and an empty line, with nothing behind the end of that. Only the
first line opens a block and only the one after the body closes a block, and a text of blocks
determines the blocks. -/
theorem conditional_taken_apart {condition : String} (line : '\n' ∉ condition.toList)
    (body : String) :
    fields '\n' (conditional condition body).toList =
      ("if (" ++ condition ++ ")").toList :: (innerLines body ++ ["endif()".toList, [], []]) ∧
    String.ofList (join '\n' ((innerLines body).map (·.drop 4))) = body ∧
    (∀ place text, (fields '\n' (conditional condition body).toList)[place]? = some text →
      (text = "endif()".toList ↔ place = (innerLines body).length + 1) ∧
      ("if (".toList <+: text ↔ place = 0)) ∧
    ∀ blocks others : List (String × String),
      (∀ block ∈ blocks ++ others, '\n' ∉ block.1.toList) →
      String.join (blocks.map fun block => conditional block.1 block.2) =
        String.join (others.map fun block => conditional block.1 block.2) → blocks = others := by
  refine ⟨fields_block line body, ?_, fun place text found => ?_, fun _ _ => join_conditional_inj⟩
  · rw [join_drop_innerLines, String.ofList_toList]
  · exact ⟨closing_iff line found, opening_iff line found⟩

/-- A body that looks like a block itself, with an empty line in it and one at its end. -/
theorem conditional_taken_apart_nested :
    '\n' ∉ "UNIX".toList ∧
      fields '\n' (conditional "UNIX" "if (APPLE)\n\nendif()\n").toList =
        ["if (UNIX)".toList, "    if (APPLE)".toList, [], "    endif()".toList, [],
          "endif()".toList, [], []] ∧
      conditional "UNIX" "if (APPLE)\n\nendif()\n" ≠
        conditional "UNIX" "" ++ conditional "APPLE" "" := by
  have line : '\n' ∉ "UNIX".toList := by decide
  obtain ⟨lines, -, -, determined⟩ := conditional_taken_apart line "if (APPLE)\n\nendif()\n"
  refine ⟨line, lines.trans (by decide), fun same => ?_⟩
  have one := determined [("UNIX", "if (APPLE)\n\nendif()\n")] [("UNIX", ""), ("APPLE", "")]
    (by decide) (by simpa [String.join_cons] using same)
  exact absurd one (by decide)

end CMakeScript
