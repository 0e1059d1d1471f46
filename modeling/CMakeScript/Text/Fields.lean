/-!
# Fields of a text

A text is cut at a separator character and put together again. `join_fields` says that nothing is
lost, `fields_join` that a list of fields without the separator is found again.
-/

namespace CMakeScript.Text

/-- The pieces of a text between the occurrences of `sep`, so a text with `n` separators has
`n + 1` fields. -/
def fields (sep : Char) : List Char → List (List Char)
  | [] => [[]]
  | c :: rest =>
    if c = sep then [] :: fields sep rest
    else
      match fields sep rest with
      | [] => [[c]]
      | field :: more => (c :: field) :: more

/-- Fields written one after another with `sep` between them. -/
def join (sep : Char) : List (List Char) → List Char
  | [] => []
  | [field] => field
  | field :: more => field ++ sep :: join sep more

theorem fields_ne_nil (sep : Char) (text : List Char) : fields sep text ≠ [] := by
  cases text with
  | nil => simp [fields]
  | cons c rest =>
    unfold fields
    split
    · simp
    · split <;> simp

theorem join_cons_of_ne_nil (sep : Char) (field : List Char) {more : List (List Char)}
    (h : more ≠ []) : join sep (field :: more) = field ++ sep :: join sep more := by
  cases more with
  | nil => exact absurd rfl h
  | cons => rfl

theorem join_fields (sep : Char) (text : List Char) : join sep (fields sep text) = text := by
  induction text with
  | nil => rfl
  | cons c rest ih =>
    unfold fields
    split
    next h => rw [join_cons_of_ne_nil sep [] (fields_ne_nil sep rest), ih, h]; rfl
    next =>
      split
      next h => exact absurd h (fields_ne_nil sep rest)
      next field more h =>
        rw [h] at ih
        cases more with
        | nil => simpa [join] using ih
        | cons => simpa [join] using ih

theorem fields_of_not_mem (sep : Char) (field : List Char) (h : sep ∉ field) :
    fields sep field = [field] := by
  induction field with
  | nil => rfl
  | cons c rest ih =>
    simp only [List.mem_cons, not_or] at h
    rw [fields, if_neg (Ne.symm h.1), ih h.2]

theorem fields_append_sep (sep : Char) (field rest : List Char) (h : sep ∉ field) :
    fields sep (field ++ sep :: rest) = field :: fields sep rest := by
  induction field with
  | nil => simp [fields]
  | cons c more ih =>
    simp only [List.mem_cons, not_or] at h
    rw [List.cons_append, fields, if_neg (Ne.symm h.1), ih h.2]

theorem fields_join (sep : Char) (pieces : List (List Char)) (ne : pieces ≠ [])
    (h : ∀ field ∈ pieces, sep ∉ field) : fields sep (join sep pieces) = pieces := by
  induction pieces with
  | nil => exact absurd rfl ne
  | cons field more ih =>
    have free : sep ∉ field := h field (by simp)
    cases more with
    | nil => exact fields_of_not_mem sep field free
    | cons next rest =>
      rw [join_cons_of_ne_nil sep field (by simp), fields_append_sep sep field _ free,
        ih (by simp) fun f hf => h f (by simp [hf])]

theorem not_mem_of_mem_fields {sep : Char} {text field : List Char}
    (mem : field ∈ fields sep text) : sep ∉ field := by
  induction text generalizing field with
  | nil =>
    rw [List.mem_singleton.mp mem]
    exact List.not_mem_nil
  | cons c rest ih =>
    rw [fields] at mem
    split at mem
    next =>
      rcases List.mem_cons.mp mem with rfl | later
      · exact List.not_mem_nil
      · exact ih later
    next other =>
      split at mem
      next none => exact absurd none (fields_ne_nil _ rest)
      next first more cut =>
        rcases List.mem_cons.mp mem with rfl | later
        · rw [List.mem_cons, not_or]
          exact ⟨Ne.symm other, ih (by simp [cut])⟩
        · exact ih (by simp [cut, later])

theorem mem_of_mem_fields {sep c : Char} {text field : List Char} (h : field ∈ fields sep text)
    (mem : c ∈ field) : c ∈ text := by
  induction text generalizing field with
  | nil =>
    rw [List.mem_singleton.mp h] at mem
    exact absurd mem List.not_mem_nil
  | cons d rest ih =>
    rw [fields] at h
    split at h
    next =>
      rcases List.mem_cons.mp h with rfl | later
      · exact absurd mem List.not_mem_nil
      · exact List.mem_cons_of_mem _ (ih later mem)
    next =>
      split at h
      next none => exact absurd none (fields_ne_nil _ rest)
      next first more cut =>
        rcases List.mem_cons.mp h with rfl | later
        · rcases List.mem_cons.mp mem with rfl | inside
          · exact List.mem_cons_self
          · exact List.mem_cons_of_mem _ (ih (by simp [cut]) inside)
        · exact List.mem_cons_of_mem _ (ih (by simp [cut, later]) mem)

theorem join_eq_intercalate (sep : Char) (pieces : List (List Char)) :
    join sep pieces = [sep].intercalate pieces := by
  induction pieces with
  | nil => rfl
  | cons piece rest ih =>
    cases rest with
    | nil => exact List.intercalate_singleton.symm
    | cons next more =>
      rw [join_cons_of_ne_nil sep piece (by simp), List.intercalate_cons_cons, ih]
      simp

theorem fields_intercalate {sep : Char} {separator : String} (hsep : separator.toList = [sep])
    {pieces : List String} (ne : pieces ≠ []) (free : ∀ piece ∈ pieces, sep ∉ piece.toList) :
    (fields sep (separator.intercalate pieces).toList).map String.ofList = pieces := by
  rw [String.toList_intercalate, hsep, ← join_eq_intercalate, fields_join sep _ (by simpa using ne)]
  · simp [Function.comp_def]
  · intro field mem
    obtain ⟨piece, inside, rfl⟩ := List.mem_map.mp mem
    exact free piece inside

theorem intercalate_fields {sep : Char} {separator : String} (hsep : separator.toList = [sep])
    (text : String) :
    separator.intercalate ((fields sep text.toList).map String.ofList) = text := by
  apply String.ext
  rw [String.toList_intercalate, hsep, List.map_map, ← join_eq_intercalate]
  simp [Function.comp_def, join_fields]

theorem mem_of_mem_intercalate {separator : String} {parts : List String} {c : Char}
    (mem : c ∈ (separator.intercalate parts).toList) :
    c ∈ separator.toList ∨ ∃ part ∈ parts, c ∈ part.toList := by
  induction parts with
  | nil => simp at mem
  | cons part rest ih =>
    cases rest with
    | nil =>
      rw [String.intercalate_singleton] at mem
      exact .inr ⟨part, List.mem_cons_self, mem⟩
    | cons next more =>
      rw [String.intercalate_cons_cons, String.toList_append, String.toList_append,
        List.mem_append, List.mem_append] at mem
      rcases mem with (own | between) | later
      · exact .inr ⟨part, List.mem_cons_self, own⟩
      · exact .inl between
      · obtain between | ⟨other, inside, found⟩ := ih later
        · exact .inl between
        · exact .inr ⟨other, List.mem_cons_of_mem _ inside, found⟩

/-- Writes `indent` in front of every line that is not empty. -/
def indentLines (indent text : List Char) : List Char :=
  join '\n' ((fields '\n' text).map fun line => if line.isEmpty then line else indent ++ line)

end CMakeScript.Text
