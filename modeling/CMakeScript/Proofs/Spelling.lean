import CMakeScript.Name
import CMakeScript.Proofs.Lexer

/-!
# Arguments are read as they were meant

`spells_render` says that a rendered value is read as that one argument, whatever it holds, and
`spells_renderList` that a rendered list is read as its items. `reads_directive` puts the arguments
into a directive.
-/

namespace CMakeScript.Lexer

theorem add_nil (d : Directive) : d.add [] = d := by
  simp [Directive.add]

theorem add_add (d : Directive) (xs ys : List String) : (d.add xs).add ys = d.add (xs ++ ys) := by
  simp [Directive.add]

/-- The mode in which the argument that is being read has ended. -/
def Mode.settle : Mode → Mode
  | bare d text => gap (d.add [String.ofList text])
  | closed d => gap d
  | m => m

def isSeparator (c : Char) : Bool := c.isWhitespace || c == ')' || c == '#'

theorem isBare_eq_false_of_isSeparator {c : Char} (h : isSeparator c = true) :
    isBare c = false := by
  simp only [isSeparator, Bool.or_eq_true, beq_iff_eq] at h
  rcases h with (h | rfl) | rfl
  · simp [isBare, h]
  · decide
  · decide

theorem step_settle (m : Mode) {c : Char} (h : isSeparator c = true) :
    step m.settle c = step m c := by
  have plain := isBare_eq_false_of_isSeparator h
  have noQuote : c ≠ '"' := by
    rintro rfl
    exact absurd h (by decide)
  cases m <;> simp [Mode.settle, step, plain, noQuote]

/-- From a separator on, a text is read as if the argument before it had ended. -/
theorem Reads.settle {m n : Mode} {c : Char} {rest : List Char} {ds : List Directive}
    (h : isSeparator c = true) (reading : Reads m.settle (c :: rest) ds n) :
    Reads m (c :: rest) ds n := by
  unfold Reads at reading ⊢
  rw [scan, step_settle m h] at reading
  exact reading

/-- In a directive the text adds the arguments, up to the end of the last one. -/
def Spells (text : List Char) (arguments : List String) : Prop :=
  ∀ d : Directive, ∃ m, Reads (.gap d) text [] m ∧ m.settle = .gap (d.add arguments)

theorem Spells.nil : Spells [] [] := fun d =>
  ⟨.gap d, .nil _, by rw [add_nil]; rfl⟩

theorem Spells.space {a b : List Char} {xs ys : List String} (first : Spells a xs)
    (second : Spells b ys) : Spells (a ++ ' ' :: b) (xs ++ ys) := by
  intro d
  obtain ⟨m, readA, endA⟩ := first d
  obtain ⟨n, readB, endB⟩ := second (d.add xs)
  have blank : step (.gap (d.add xs)) ' ' = some (.gap (d.add xs), none) := rfl
  have spaced : Reads m.settle (' ' :: b) [] n := by
    rw [endA]
    exact .cons blank readB
  exact ⟨n, readA.append (spaced.settle (by decide)), by rw [endB, add_add]⟩

/-! ### Unquoted arguments -/

theorem reads_bare (d : Directive) (before text : List Char) (h : text.all isBare = true) :
    Reads (.bare d before) text [] (.bare d (before ++ text)) := by
  induction text generalizing before with
  | nil => rw [List.append_nil]; exact .nil _
  | cons c rest ih =>
    simp only [List.all_cons, Bool.and_eq_true] at h
    have next : step (.bare d before) c = some (.bare d (before ++ [c]), none) := by
      simp [step, h.1]
    have more := ih (before ++ [c]) h.2
    rw [List.append_assoc] at more
    exact .cons next more

/-- A text that CMake reads as one unquoted argument. -/
def IsPlain (text : String) : Prop := text.toList ≠ [] ∧ text.toList.all isBare = true

instance (text : String) : Decidable (IsPlain text) :=
  inferInstanceAs (Decidable (_ ∧ _))

theorem spells_plain {text : String} (h : IsPlain text) : Spells text.toList [text] := by
  intro d
  obtain ⟨ne, all⟩ := h
  obtain ⟨c, rest, cut⟩ := List.exists_cons_of_ne_nil ne
  rw [cut, List.all_cons, Bool.and_eq_true] at all
  have notQuote : c ≠ '"' := by
    rintro rfl
    exact absurd all.1 (by decide)
  have first : step (.gap d) c = some (.bare d [c], none) := by
    simp [step, notQuote, all.1]
  refine ⟨.bare d (c :: rest), ?_, ?_⟩
  · rw [cut]
    exact .cons first (reads_bare d [c] rest all.2)
  · rw [Mode.settle, ← cut, String.ofList_toList]

theorem spells_words {words : List String} (h : ∀ word ∈ words, IsPlain word) :
    Spells (" ".intercalate words).toList words := by
  induction words with
  | nil => exact .nil
  | cons word rest ih =>
    have first := spells_plain (h word List.mem_cons_self)
    cases rest with
    | nil => simpa using first
    | cons next more =>
      have spaced := first.space (ih fun other mem => h other (List.mem_cons_of_mem _ mem))
      simpa [String.toList_intercalate, List.intercalate] using spaced

/-! ### Quoted arguments -/

theorem reads_escape (d : Directive) (before text : List Char) :
    Reads (.quoted d before) (text.flatMap Argument.escapeChar) []
      (.quoted d (before ++ text)) := by
  induction text generalizing before with
  | nil => rw [List.append_nil]; exact .nil _
  | cons c rest ih =>
    have more := ih (before ++ [c])
    rw [List.append_assoc] at more
    rw [List.flatMap_cons]
    unfold Argument.escapeChar
    split
    next h =>
      -- The backslash opens an escape, so the character behind it cannot end the argument.
      have backslash : step (.quoted d before) '\\' = some (.escaped d before, none) := rfl
      have character : step (.escaped d before) c = some (.quoted d (before ++ [c]), none) := rfl
      exact .cons backslash (.cons character more)
    next h =>
      simp only [not_or] at h
      have character : step (.quoted d before) c = some (.quoted d (before ++ [c]), none) := by
        simp [step, h.1, h.2.1]
      exact .cons character more

theorem spells_quote (value : String) : Spells (Argument.quote value).toList [value] := by
  intro d
  have opening : step (.gap d) '"' = some (.quoted d [], none) := rfl
  have content := reads_escape d [] value.toList
  have closing : step (.quoted d value.toList) '"' = some (.closed (d.add [value]), none) := by
    simp [step]
  refine ⟨.closed (d.add [value]), ?_, rfl⟩
  rw [Argument.toList_quote]
  exact .cons opening (content.append (.cons closing (.nil _)))

/-! ### Rendered values -/

theorem isBare_of_not_needsQuotes {c : Char} (h : Argument.needsQuotes c = false) :
    isBare c = true := by
  simp only [Argument.needsQuotes, Bool.or_eq_false_iff, beq_eq_false_iff_ne, ne_eq] at h
  obtain ⟨⟨⟨⟨⟨⟨⟨blank, quote⟩, opening⟩, closing⟩, hash⟩, -⟩, -⟩, backslash⟩ := h
  have white : c.isWhitespace = false := by
    cases found : c.isWhitespace with
    | false => rfl
    | true => rw [Text.isBlank_of_isWhitespace c found] at blank; cases blank
  simp [isBare, white, quote, opening, closing, hash, backslash]

theorem spells_render (value : String) : Spells (Argument.render value).toList [value] := by
  unfold Argument.render
  split
  · exact spells_quote value
  next h =>
    simp only [Bool.or_eq_true, not_or, Bool.not_eq_true, List.any_eq_false] at h
    refine spells_plain ⟨?_, ?_⟩
    · intro empty
      have : value = "" := by rw [← String.ofList_toList (s := value), empty]
      rw [this] at h
      exact absurd h.1 (by decide)
    · rw [List.all_eq_true]
      intro c mem
      exact isBare_of_not_needsQuotes (by simpa using h.2 c mem)

theorem spells_renderList (items : List String) :
    Spells (Argument.renderList items).toList items := by
  induction items with
  | nil => exact .nil
  | cons item rest ih =>
    have first := spells_render item
    cases rest with
    | nil => simpa using first
    | cons next more =>
      rw [Argument.toList_renderList_cons]
      exact first.space ih

/-- A text spells one list of arguments. -/
theorem Spells.unique {text : List Char} {xs ys : List String} (first : Spells text xs)
    (second : Spells text ys) : xs = ys := by
  obtain ⟨m, reading, settled⟩ := first ⟨"", []⟩
  obtain ⟨n, again, other⟩ := second ⟨"", []⟩
  unfold Reads at reading again
  rw [again] at reading
  cases reading
  rw [settled] at other
  simpa [Directive.add] using other

theorem renderList_inj {xs ys : List String} :
    Argument.renderList xs = Argument.renderList ys ↔ xs = ys := by
  constructor
  · intro same
    have first := spells_renderList xs
    rw [same] at first
    exact first.unique (spells_renderList ys)
  · rintro rfl
    rfl

/-! ### Directives -/

theorem reads_word (before text : List Char) (h : text.all isWord = true) :
    Reads (.word before) text [] (.word (before ++ text)) := by
  induction text generalizing before with
  | nil => rw [List.append_nil]; exact .nil _
  | cons c rest ih =>
    simp only [List.all_cons, Bool.and_eq_true] at h
    have next : step (.word before) c = some (.word (before ++ [c]), none) := by
      simp [step, h.1]
    have more := ih (before ++ [c]) h.2
    rw [List.append_assoc] at more
    exact .cons next more

def IsCommand (name : String) : Prop := name.toList ≠ [] ∧ name.toList.all isWord = true

instance (name : String) : Decidable (IsCommand name) :=
  inferInstanceAs (Decidable (_ ∧ _))

theorem not_isWhitespace_of_isWord {c : Char} (h : isWord c = true) : c.isWhitespace = false := by
  cases white : c.isWhitespace with
  | false => rfl
  | true =>
    simp only [Char.isWhitespace, Bool.or_eq_true, decide_eq_true_eq] at white
    rcases white with ((rfl | rfl) | rfl) | rfl <;> exact absurd h (by decide)

theorem step_line_of_isWord {c : Char} (h : isWord c = true) :
    step .line c = some (.word [c], none) := by
  have notHash : c ≠ '#' := by
    rintro rfl
    exact absurd h (by decide)
  simp [step, not_isWhitespace_of_isWord h, notHash, h]

theorem reads_name {name : String} (h : IsCommand name) :
    Reads .line name.toList [] (.word name.toList) := by
  obtain ⟨ne, all⟩ := h
  obtain ⟨c, rest, cut⟩ := List.exists_cons_of_ne_nil ne
  rw [cut] at all ⊢
  rw [List.all_cons, Bool.and_eq_true] at all
  exact .cons (step_line_of_isWord all.1) (reads_word [c] rest all.2)

/-- A directive up to its closing parenthesis. -/
theorem reads_open {name : String} {text : List Char} {arguments : List String}
    (hname : IsCommand name) (h : Spells text arguments) :
    ∃ m, Reads .line (name.toList ++ '(' :: text) [] m ∧ m.settle = .gap ⟨name, arguments⟩ := by
  obtain ⟨m, reading, settled⟩ := h ⟨name, []⟩
  have opening : step (.word name.toList) '(' = some (.gap ⟨name, []⟩, none) := by
    have apart : isWord '(' = false := by decide
    simp [step, apart]
  exact ⟨m, (reads_name hname).append (.cons opening reading), settled⟩

theorem step_closing {m : Mode} {d : Directive} (settled : m.settle = .gap d) :
    step m ')' = some (.done, some d) := by
  rw [← step_settle m (by decide), settled]
  rfl

theorem reads_directive {name : String} {text : List Char} {arguments : List String}
    (hname : IsCommand name) (h : Spells text arguments) :
    Reads .line (name.toList ++ '(' :: (text ++ [')'])) [⟨name, arguments⟩] .done := by
  obtain ⟨m, reading, settled⟩ := reads_open hname h
  have whole := reading.append (.cons (step_closing settled) (.nil _))
  simpa using whole

end CMakeScript.Lexer
