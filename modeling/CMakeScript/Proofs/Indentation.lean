import CMakeScript.Section

/-!
# What indentation does to arguments

The text inside a block is indented line by line, and a quoted argument may go over several lines.
`indentLines_setCommand` says what comes out: the command that sets the variable to values in which
the lines after the first are indented too. `indentRest_eq_self_iff` says which values that changes.
-/

namespace CMakeScript

namespace Text

theorem fields_append (sep : Char) (a b : List Char) :
    fields sep (a ++ sep :: b) = fields sep a ++ fields sep b := by
  induction a with
  | nil => simp [fields]
  | cons c rest ih =>
    by_cases h : c = sep
    · simp [fields, h, ih]
    · rw [List.cons_append, fields, if_neg h, fields, if_neg h, ih]
      cases cut : fields sep rest with
      | nil => exact absurd cut (fields_ne_nil sep rest)
      | cons field more => rfl

theorem join_append (sep : Char) {xs ys : List (List Char)} (hx : xs ≠ []) (hy : ys ≠ []) :
    join sep (xs ++ ys) = join sep xs ++ sep :: join sep ys := by
  induction xs with
  | nil => exact absurd rfl hx
  | cons x rest ih =>
    cases rest with
    | nil => exact join_cons_of_ne_nil sep x hy
    | cons next more =>
      rw [List.cons_append, join_cons_of_ne_nil sep x (by simp), ih (by simp),
        join_cons_of_ne_nil sep x (by simp), List.append_assoc, List.cons_append]

theorem indentLines_append (indent a b : List Char) :
    indentLines indent (a ++ '\n' :: b) = indentLines indent a ++ '\n' :: indentLines indent b := by
  unfold indentLines
  rw [fields_append, List.map_append, join_append]
  · exact fun empty => fields_ne_nil _ _ (List.map_eq_nil_iff.mp empty)
  · exact fun empty => fields_ne_nil _ _ (List.map_eq_nil_iff.mp empty)

theorem indentLines_nil (indent : List Char) : indentLines indent [] = [] := rfl

theorem indentLines_line (indent : List Char) {line : List Char} (ne : line ≠ [])
    (h : '\n' ∉ line) : indentLines indent line = indent ++ line := by
  unfold indentLines
  rw [fields_of_not_mem _ _ h]
  cases line with
  | nil => exact absurd rfl ne
  | cons => rfl

/-- A text that begins and goes on within a line, with its lines after the first indented. -/
def indentRest (indent : List Char) : List Char → List Char
  | [] => []
  | c :: rest =>
    if c = '\n' ∧ rest.head? ≠ some '\n' then c :: (indent ++ indentRest indent rest)
    else c :: indentRest indent rest

theorem indentRest_append (indent a : List Char) {c : Char} (hc : c ≠ '\n') (b : List Char) :
    indentRest indent (a ++ c :: b) = indentRest indent a ++ indentRest indent (c :: b) := by
  induction a with
  | nil => rfl
  | cons d rest ih =>
    have head : (rest ++ c :: b).head? ≠ some '\n' ↔ rest.head? ≠ some '\n' := by
      cases rest <;> simp [hc]
    rw [List.cons_append, indentRest, indentRest, ih]
    simp only [head]
    split <;> simp

theorem indentRest_line_append (indent line b : List Char) (h : '\n' ∉ line) :
    indentRest indent (line ++ b) = line ++ indentRest indent b := by
  induction line with
  | nil => rfl
  | cons c rest ih =>
    simp only [List.mem_cons, not_or] at h
    rw [List.cons_append, indentRest, if_neg fun e => h.1 e.1.symm, ih h.2, List.cons_append]

theorem indentRest_of_not_mem (indent : List Char) {text : List Char} (h : '\n' ∉ text) :
    indentRest indent text = text := by
  have line := indentRest_line_append indent text [] h
  rwa [indentRest, List.append_nil] at line

theorem subset_indentRest (indent text : List Char) : text ⊆ indentRest indent text := by
  induction text with
  | nil => exact List.nil_subset _
  | cons c rest ih =>
    intro d mem
    rw [indentRest]
    rcases List.mem_cons.mp mem with rfl | mem
    · split <;> exact List.mem_cons_self
    · have later := ih mem
      split
      · exact List.mem_cons_of_mem _ (List.mem_append_right _ later)
      · exact List.mem_cons_of_mem _ later

theorem length_le_indentRest (indent text : List Char) :
    text.length ≤ (indentRest indent text).length := by
  induction text with
  | nil => exact Nat.le_refl _
  | cons c rest ih =>
    rw [indentRest]
    split <;> simp <;> omega

/-- The last line of a text with a line end is indented, so the text grows. -/
theorem length_lt_indentRest {indent text : List Char} (ne : indent ≠ []) (h : '\n' ∈ text) :
    text.length < (indentRest indent text).length := by
  have positive : 0 < indent.length := List.length_pos_iff.mpr ne
  induction text with
  | nil => cases h
  | cons c rest ih =>
    have grows := length_le_indentRest indent rest
    rw [indentRest]
    split
    next => simp; omega
    next stays =>
      have mem : '\n' ∈ rest := by
        rcases List.mem_cons.mp h with rfl | mem
        · -- The next line is empty, so there is another line end.
          have head : rest.head? = some '\n' := by simpa using stays
          exact List.mem_of_mem_head? head
        · exact mem
      have := ih mem
      simp
      omega

/-- Indentation changes exactly the texts that go over several lines. -/
theorem indentRest_eq_self_iff (indent text : List Char) (ne : indent ≠ []) :
    indentRest indent text = text ↔ '\n' ∉ text := by
  constructor
  · intro same mem
    have grows := length_lt_indentRest ne mem
    rw [same] at grows
    omega
  · exact indentRest_of_not_mem indent

/-- What becomes of the lines that a text goes over: as the continuation of a line, and as a line
of its own. -/
theorem indentLines_continue (indent text tail : List Char) (ne : tail ≠ []) (h : '\n' ∉ tail) :
    (∀ start : List Char, start ≠ [] → '\n' ∉ start →
      indentLines indent (start ++ (text ++ tail)) =
        indent ++ (start ++ (indentRest indent text ++ tail))) ∧
    indentLines indent (text ++ tail) =
      (if text.head? = some '\n' then [] else indent) ++ (indentRest indent text ++ tail) := by
  induction text with
  | nil =>
    refine ⟨fun start startNe startLine => ?_, ?_⟩
    · exact indentLines_line indent (by simp [startNe]) (by simp [startLine, h])
    · exact indentLines_line indent ne h
  | cons c rest ih =>
    obtain ⟨continued, fresh⟩ := ih
    by_cases hc : c = '\n'
    · subst hc
      have cut : '\n' :: indentLines indent (rest ++ tail) =
          indentRest indent ('\n' :: rest) ++ tail := by
        rw [fresh, indentRest]
        by_cases head : rest.head? = some '\n' <;> simp [head]
      refine ⟨fun start startNe startLine => ?_, ?_⟩
      · rw [List.cons_append, indentLines_append, indentLines_line indent startNe startLine, cut,
          List.append_assoc]
      · have empty := indentLines_append indent [] (rest ++ tail)
        rw [List.nil_append, indentLines_nil, List.nil_append] at empty
        rw [List.cons_append, empty, cut]
        simp
    · have kept : indentRest indent (c :: rest) = c :: indentRest indent rest := by
        rw [indentRest, if_neg fun e => hc e.1]
      refine ⟨fun start startNe startLine => ?_, ?_⟩
      · have line : '\n' ∉ start ++ [c] := by simp [startLine, Ne.symm hc]
        have longer := continued (start ++ [c]) (by simp) line
        simpa [kept] using longer
      · have alone := continued [c] (by simp) (by simp [Ne.symm hc])
        simpa [kept, hc] using alone

end Text

/-- A value as it comes out of a block: its lines after the first are indented. -/
def reindent (value : String) : String :=
  String.ofList (Text.indentRest blockIndent.toList value.toList)

theorem reindent_eq_self_iff (value : String) : reindent value = value ↔ '\n' ∉ value.toList := by
  rw [← Text.indentRest_eq_self_iff blockIndent.toList value.toList (by decide)]
  constructor
  · intro same
    simpa [reindent] using congrArg String.toList same
  · intro same
    rw [reindent, same, String.ofList_toList]

namespace Argument

theorem escapeChar_newline : escapeChar '\n' = ['\n'] := by decide

theorem head?_escapeChar {c : Char} (h : c ≠ '\n') :
    ∃ d rest, escapeChar c = d :: rest ∧ d ≠ '\n' ∧ '\n' ∉ rest := by
  unfold escapeChar
  split
  · exact ⟨'\\', [c], rfl, by decide, by simpa using Ne.symm h⟩
  · exact ⟨c, [], rfl, h, by simp⟩

theorem escapeChar_blank : blockIndent.toList.flatMap escapeChar = blockIndent.toList := by decide

/-- The lines of an escaped text are the escaped lines of the text. -/
theorem indentRest_escape (text : List Char) :
    Text.indentRest blockIndent.toList (text.flatMap escapeChar) =
      (Text.indentRest blockIndent.toList text).flatMap escapeChar := by
  induction text with
  | nil => rfl
  | cons c rest ih =>
    by_cases hc : c = '\n'
    · subst hc
      have head : (rest.flatMap escapeChar).head? = some '\n' ↔ rest.head? = some '\n' := by
        cases rest with
        | nil => simp
        | cons d more =>
          by_cases hd : d = '\n'
          · simp [hd, escapeChar_newline]
          · obtain ⟨e, tail, cut, he, -⟩ := head?_escapeChar hd
            simp [cut, he, hd]
      rw [List.flatMap_cons, escapeChar_newline, List.singleton_append, Text.indentRest,
        Text.indentRest, ih]
      simp only [true_and, ne_eq, head]
      split
      · simp only [List.flatMap_cons, List.flatMap_append, escapeChar_newline, escapeChar_blank,
          List.singleton_append]
      · rw [List.flatMap_cons, escapeChar_newline, List.singleton_append]
    · have line : '\n' ∉ escapeChar c := by
        obtain ⟨d, tail, cut, hd, htail⟩ := head?_escapeChar hc
        simp [cut, Ne.symm hd, htail]
      have kept : Text.indentRest blockIndent.toList (c :: rest) =
          c :: Text.indentRest blockIndent.toList rest := by
        rw [Text.indentRest, if_neg fun e => hc e.1]
      rw [List.flatMap_cons, Text.indentRest_line_append _ _ _ line, ih, kept, List.flatMap_cons]

theorem indentRest_quote (value : String) :
    Text.indentRest blockIndent.toList (quote value).toList = (quote (reindent value)).toList := by
  have opening := Text.indentRest_line_append blockIndent.toList ['"']
    (value.toList.flatMap escapeChar ++ ['"']) (by decide)
  have closing := Text.indentRest_append blockIndent.toList (value.toList.flatMap escapeChar)
    (c := '"') (by decide) []
  rw [toList_quote, toList_quote, reindent, String.toList_ofList, ← indentRest_escape]
  rw [List.singleton_append] at opening
  rw [opening, closing]
  rfl

theorem indentRest_render (value : String) :
    Text.indentRest blockIndent.toList (render value).toList =
      (render (reindent value)).toList := by
  by_cases quoted : (value.isEmpty || value.toList.any needsQuotes) = true
  · have still : ((reindent value).isEmpty || (reindent value).toList.any needsQuotes) = true := by
      rw [Bool.or_eq_true] at quoted ⊢
      rcases quoted with empty | found
      · left
        rw [String.isEmpty_iff] at empty ⊢
        subst empty
        rfl
      · right
        rw [List.any_eq_true] at found ⊢
        obtain ⟨c, mem, needs⟩ := found
        rw [reindent, String.toList_ofList]
        exact ⟨c, Text.subset_indentRest _ _ mem, needs⟩
    rw [render, render, if_pos quoted, if_pos still, indentRest_quote]
  · have line : '\n' ∉ value.toList := by
      intro mem
      simp only [Bool.or_eq_true, not_or, List.any_eq_true, not_exists] at quoted
      exact quoted.2 '\n' ⟨mem, by decide⟩
    rw [(reindent_eq_self_iff value).mpr line, render, if_neg quoted,
      Text.indentRest_of_not_mem _ line]

theorem indentRest_renderList (items : List String) :
    Text.indentRest blockIndent.toList (renderList items).toList =
      (renderList (items.map reindent)).toList := by
  induction items with
  | nil => rfl
  | cons item rest ih =>
    cases rest with
    | nil => simpa using indentRest_render item
    | cons next more =>
      have blank := Text.indentRest_line_append blockIndent.toList [' ']
        (renderList (next :: more)).toList (by decide)
      rw [List.singleton_append] at blank
      rw [List.map_cons] at ih
      rw [List.map_cons, List.map_cons, toList_renderList_cons, toList_renderList_cons,
        Text.indentRest_append _ _ (by decide), indentRest_render, blank, ih]
      rfl

end Argument

theorem indentLines_setCommand {name : String} (h : '\n' ∉ name.toList) (items : List String) :
    Text.indentLines blockIndent.toList (setCommand name (Argument.renderList items)).toList =
      blockIndent.toList ++
        (setCommand name (Argument.renderList (items.map reindent))).toList := by
  have cut (value : String) : (setCommand name value).toList =
      ("set(" ++ name ++ " ").toList ++ (value.toList ++ [')']) := by
    simp [setCommand]
  have start : '\n' ∉ ("set(" ++ name ++ " ").toList := by simp [h]
  have continued := (Text.indentLines_continue blockIndent.toList
    (Argument.renderList items).toList [')'] (by decide) (by decide)).1
    ("set(" ++ name ++ " ").toList (by simp) start
  rw [cut, cut, continued, Argument.indentRest_renderList]

end CMakeScript
