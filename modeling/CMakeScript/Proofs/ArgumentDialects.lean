import CMakeScript.Proofs.ArgumentGrammar

/-!
# Written arguments in two grammars

Written lists are read back by the plainest grammar for them, in which a single space stands between
two arguments: `spaced_reads_back`. They are not always read back by CMake, as its arguments may
stand in brackets: `cmake_reads_back_iff`.
-/

namespace CMakeScript.Grammar

/-- Arguments with single spaces between them. One that begins with a quote ends at the next quote,
and within it a backslash stands before a character that is meant as it is. -/
def spaced : Grammar where
  separates c := c == ' '
  loose := false
  isBare c := c != ' '
  isLiteral _ := true
  escapable _ := true
  brackets := false

/-- A character that does not stand for itself in an unquoted argument of CMake. -/
def isSpecial (c : Char) : Bool :=
  c == '(' || c == ')' || c == '#' || c == '"' || c == ';' || c == '$' || c == '\\'

/-- The arguments of CMake, as far as they stand for themselves. A dollar sign may be the beginning
of a reference to a variable, between quotes too. -/
def cmake : Grammar where
  separates c := c.isWhitespace
  loose := true
  isBare c := !c.isWhitespace && !isSpecial c
  isLiteral c := c != '$'
  escapable c := c == '\\' || c == '"' || c == '$'
  brackets := true

theorem fits_spaced : spaced.Fits where
  space := by decide
  quote := by decide
  bare {c} plain := by
    have noSpace : c ≠ ' ' := by
      rintro rfl
      exact absurd plain (by decide)
    simp [spaced, noSpace]
  isLiteral _ _ _ := rfl
  escapable _ := rfl

theorem not_isWhitespace {c : Char} (plain : Argument.needsQuotes c = false) :
    c.isWhitespace = false := by
  rw [Bool.eq_false_iff]
  intro white
  have blank := Text.isBlank_of_isWhitespace c white
  simp [Argument.needsQuotes, blank] at plain

theorem not_isSpecial {c : Char} (plain : Argument.needsQuotes c = false) :
    isSpecial c = false := by
  simp only [Argument.needsQuotes, Bool.or_eq_false_iff] at plain
  obtain ⟨⟨⟨⟨⟨⟨⟨-, quote⟩, opening⟩, closing⟩, hash⟩, semicolon⟩, dollar⟩, backslash⟩ := plain
  simp [isSpecial, quote, opening, closing, hash, semicolon, dollar, backslash]

theorem fits_cmake : cmake.Fits where
  space := by decide
  quote := by decide
  bare plain := by simp [cmake, not_isWhitespace plain, not_isSpecial plain]
  isLiteral _ _ dollar := by simpa [cmake] using dollar
  escapable special := by simpa [cmake, or_assoc] using special

/-- Every list is read back, so no two lists are written alike. -/
theorem spaced_reads_back (items : List String) :
    spaced.read (Argument.renderList items) = some items ∧
      ∀ others, Argument.renderList items = Argument.renderList others ↔ items = others := by
  have reads (items : List String) : spaced.read (Argument.renderList items) = some items :=
    (read_renderList_iff fits_spaced items).mpr fun _ _ begins => Bool.false_ne_true begins.1
  refine ⟨reads items, fun others => ⟨fun same => ?_, fun same => same ▸ rfl⟩⟩
  have again := reads others
  rw [← same, reads items] at again
  exact Option.some.inj again

/-- An item may be empty, hold spaces, end in backslashes or be nothing but these. -/
example : spaced.read (Argument.renderList ["", "a\"b", "\\", "\\\\\"", "c d", "[["]) =
    some ["", "a\"b", "\\", "\\\\\"", "c d", "[["] := by decide +kernel

/-- CMake reads a list as it was meant exactly if no item is written bare and begins with a square
bracket, equals signs and another square bracket. The same holds of a single argument. -/
theorem cmake_reads_back_iff (items : List String) (value : String) :
    (cmake.read (Argument.renderList items) = some items ↔ ∀ item ∈ items, ¬BeginsBracket item) ∧
      (cmake.read (Argument.render value) = some [value] ↔ ¬BeginsBracket value) := by
  have lists (items : List String) : cmake.read (Argument.renderList items) = some items ↔
      ∀ item ∈ items, ¬BeginsBracket item := by
    have reads := read_renderList_iff fits_cmake items
    simpa only [cmake, true_and] using reads
  have single := lists [value]
  rw [Argument.renderList_singleton, List.forall_mem_singleton] at single
  exact ⟨lists items, single⟩

/-- A text in double square brackets loses them. An opening bracket takes in the items behind it. -/
theorem brackets_taken_away :
    Argument.render "[[a]]" = "[[a]]" ∧ cmake.read (Argument.render "[[a]]") = some ["a"] ∧
      cmake.read (Argument.render "[[a]]") ≠ some ["[[a]]"] ∧
      cmake.read (Argument.renderList ["[=[", "b", "]=]"]) = some [" b "] := by
  decide +kernel

end CMakeScript.Grammar
