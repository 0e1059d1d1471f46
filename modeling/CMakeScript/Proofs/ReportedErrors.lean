import CMakeScript.Proofs.Configured
import CMakeScript.Proofs.Execution
import CMakeScript.Proofs.ScriptEnd
import CMakeScript.Proofs.SectionReading

/-!
# Errors are read back from a script

`fatals` reads the fatal errors with which a text begins, up to the first directive that is none.
`errors_read_back` says that these are the recorded errors, right behind the preamble of every
script, whatever the messages hold and whatever else the script says.
-/

namespace CMakeScript

/-- The message of a directive that is a fatal error. CMake puts its parts together. -/
def Directive.fatal? (d : Directive) : Option String :=
  if d.isFatal then some (String.join d.arguments.tail) else none

namespace Lexer

def fatals : Mode → List Char → List String
  | _, [] => []
  | m, c :: rest =>
    match step m c with
    | none => []
    | some (next, none) => fatals next rest
    | some (next, some d) =>
      match d.fatal? with
      | some message => message :: fatals next rest
      | none => []

theorem fatals_append {m n : Mode} {text : List Char} (h : Reads m text [] n) (rest : List Char) :
    fatals m (text ++ rest) = fatals n rest := by
  induction text generalizing m with
  | nil =>
    cases h
    rfl
  | cons c more ih =>
    obtain ⟨k, next, reading⟩ := h.of_cons
    rw [List.cons_append, fatals, next]
    exact ih reading

theorem fatals_closing {m : Mode} {d : Directive} {message : String}
    (settled : m.settle = .gap d) (fatal : d.fatal? = some message) (rest : List Char) :
    fatals m (')' :: rest) = message :: fatals .done rest := by
  rw [fatals, step_closing settled]
  simp only [fatal]

/-! ### Texts that begin with another directive -/

/-- The name of the directive that is being read. -/
def Mode.command? : Mode → Option String
  | gap d | remark d | bare d _ | quoted d _ | escaped d _ | closed d => some d.name
  | _ => none

/-- A directive keeps its name until it is complete. -/
theorem command?_of_step {m n : Mode} {name : String} {c : Char} {out : Option Directive}
    (inside : m.command? = some name) (h : step m c = some (n, out)) :
    (out = none ∧ n.command? = some name) ∨ ∃ d, out = some d ∧ d.name = name := by
  cases m with
  | line | comment | word | named | done => cases inside
  | _ =>
    simp only [Mode.command?, Option.some.injEq] at inside
    simp only [step, separate] at h
    (repeat' split at h) <;> cases h <;> simp [Mode.command?, Directive.add, inside]

theorem fatals_of_command? {m : Mode} {name : String} (inside : m.command? = some name)
    (other : name ≠ "message") (text : List Char) : fatals m text = [] := by
  induction text generalizing m with
  | nil => rfl
  | cons c rest ih =>
    rw [fatals]
    cases next : step m c with
    | none => rfl
    | some result =>
      obtain ⟨n, out⟩ := result
      rcases command?_of_step inside next with ⟨rfl, still⟩ | ⟨d, rfl, named⟩
      · exact ih still
      · have harmless : d.fatal? = none := by
          rw [Directive.fatal?, if_neg]
          simp [Directive.isFatal, named, other]
        simp only [harmless]

/-- The text begins with a directive that is not a message. -/
def BeginsOther (text : List Char) : Prop :=
  ∃ start ∈ ["if (", "set(", "install("], start.toList <+: text

theorem fatals_of_beginsOther {text : List Char} (h : BeginsOther text) :
    fatals .line text = [] := by
  obtain ⟨start, mem, rest, rfl⟩ := h
  simp only [List.mem_cons, List.not_mem_nil, or_false] at mem
  rcases mem with rfl | rfl | rfl
  · have opened : Reads .line "if (".toList [] (.gap ⟨"if", []⟩) := by decide
    rw [fatals_append opened]
    exact fatals_of_command? rfl (by decide) rest
  · have opened : Reads .line "set(".toList [] (.gap ⟨"set", []⟩) := by decide
    rw [fatals_append opened]
    exact fatals_of_command? rfl (by decide) rest
  · have opened : Reads .line "install(".toList [] (.gap ⟨"install", []⟩) := by decide
    rw [fatals_append opened]
    exact fatals_of_command? rfl (by decide) rest

end Lexer

open Lexer

/-! ### The section of the errors -/

theorem fatals_fatalError (message : String) (rest : List Char) :
    fatals .line ((fatalError message ++ "\n\n").toList ++ rest) =
      message :: fatals .line rest := by
  have command : IsCommand "message" := by decide
  have kind : Spells "FATAL_ERROR".toList ["FATAL_ERROR"] := spells_plain (by decide)
  obtain ⟨m, reading, settled⟩ := reads_open command (kind.space (spells_quote message))
  have fatal : Directive.fatal? ⟨"message", ["FATAL_ERROR"] ++ [message]⟩ = some message := by
    simp [Directive.fatal?, Directive.isFatal]
  have blank : Reads .done "\n\n".toList [] .line := by decide
  have cut : (fatalError message ++ "\n\n").toList ++ rest = ("message".toList ++
      '(' :: ("FATAL_ERROR".toList ++ ' ' :: (Argument.quote message).toList)) ++
        (')' :: ("\n\n".toList ++ rest)) := by
    rw [String.toList_append, toList_fatalError]
    generalize Argument.quote message = quoted
    simp
  rw [cut, fatals_append reading, fatals_closing settled fatal, fatals_append blank]

theorem fatals_errors (messages : List String) (rest : List Char) :
    fatals .line ((Section.errors messages).toList ++ rest) = messages ++ fatals .line rest := by
  unfold Section.errors
  induction messages with
  | nil => rfl
  | cons message more ih =>
    rw [List.map_cons, String.join_cons, String.toList_append, List.append_assoc,
      fatals_fatalError, ih, List.cons_append]

example : fatals .line ("message(FATAL_ERROR \"a\\\"b\")\n\nmessage(FATAL_ERROR \"a\\\"b\")\n\n" ++
    "set(X \"message(FATAL_ERROR c)\")").toList = ["a\"b", "a\"b"] := by
  decide +kernel

theorem errors_injective : Function.Injective Section.errors := by
  intro first second same
  have read := fatals_errors second []
  rw [← same, fatals_errors first []] at read
  simpa [fatals] using read

/-! ### What follows the errors -/

theorem beginsOther_append {a b : List Char} (first : a = [] ∨ BeginsOther a)
    (second : BeginsOther b) : BeginsOther (a ++ b) := by
  rcases first with rfl | ⟨start, mem, found⟩
  · exact second
  · exact ⟨start, mem, found.trans (List.prefix_append a b)⟩

theorem beginsOther_conditional (condition body : String) :
    BeginsOther (conditional condition body).toList := by
  refine ⟨"if (", List.mem_cons_self, ?_⟩
  rw [conditional, String.append_assoc, String.append_assoc, String.append_assoc,
    String.toList_append]
  exact List.prefix_append _ _

theorem beginsOther_join {texts : List String}
    (each : ∀ text ∈ texts, text.toList = [] ∨ BeginsOther text.toList) :
    (String.join texts).toList = [] ∨ BeginsOther (String.join texts).toList := by
  induction texts with
  | nil => exact .inl rfl
  | cons text rest ih =>
    have later := ih fun other mem => each other (List.mem_cons_of_mem _ mem)
    rw [String.join_cons, String.toList_append]
    rcases later with none | others
    · rw [none, List.append_nil]
      exact each text List.mem_cons_self
    · exact .inr (beginsOther_append (each text List.mem_cons_self) others)

theorem beginsOther_platformBlocks {α : Type} (separator : String) (lines : α → List String)
    (entries : List (Platform × α)) :
    (Section.platformBlocks separator lines entries).toList = [] ∨
      BeginsOther (Section.platformBlocks separator lines entries).toList := by
  refine beginsOther_join fun text mem => ?_
  obtain ⟨entry, -, rfl⟩ := List.mem_map.mp mem
  split
  · exact .inl rfl
  · exact .inr (beginsOther_conditional _ _)

theorem prefix_paragraph (line : String) (rest : List String) :
    line.toList <+: (paragraph (line :: rest)).toList := by
  cases rest <;> simp [paragraph, String.toList_intercalate, List.intercalate]

theorem beginsOther_bindings (entries : List (String × String)) :
    (Section.bindings entries).toList = [] ∨ BeginsOther (Section.bindings entries).toList := by
  cases entries with
  | nil => exact .inl rfl
  | cons entry rest =>
    have first : "set(".toList <+: (setCommand entry.1 entry.2).toList := by simp [setCommand]
    exact .inr ⟨"set(", by decide, first.trans (prefix_paragraph _ _)⟩

theorem beginsOther_installCopy : BeginsOther Section.installCopy.toList := by
  refine ⟨"install(", by decide, List.IsPrefix.trans ?_ (prefix_paragraph _ _)⟩
  simp [reference]

/-- Behind the errors there are guards, or bindings, or at least the rules that install files. -/
theorem beginsOther_rest (c : Configuration) :
    BeginsOther (String.join (c.sections.drop 2)).toList := by
  have exclusions : (Section.exclusions c.excluded).toList = [] ∨
      BeginsOther (Section.exclusions c.excluded).toList := by
    refine beginsOther_join fun text mem => ?_
    obtain ⟨p, -, rfl⟩ := List.mem_map.mp mem
    exact .inr (beginsOther_conditional _ _)
  have restriction : (Section.restriction c.supported).toList = [] ∨
      BeginsOther (Section.restriction c.supported).toList := by
    unfold Section.restriction
    split
    · exact .inl rfl
    · exact .inr (beginsOther_conditional _ _)
  have overrides := beginsOther_platformBlocks "\n" Section.setCommands
    (c.platformBindings.entries.map fun e => (e.1, e.2.entries))
  simp only [Configuration.sections, List.drop_succ_cons, List.drop_zero, String.join_cons,
    String.toList_append]
  refine beginsOther_append exclusions (beginsOther_append restriction
    (beginsOther_append (beginsOther_bindings _) (beginsOther_append overrides ?_)))
  obtain ⟨start, mem, found⟩ := beginsOther_installCopy
  exact ⟨start, mem, found.trans (List.prefix_append _ _)⟩

/-- A line end at the end of a text does not make it begin with another directive. -/
theorem beginsOther_of_append_newline {text : List Char} (h : BeginsOther (text ++ ['\n'])) :
    BeginsOther text := by
  obtain ⟨start, mem, found⟩ := h
  refine ⟨start, mem, (List.prefix_concat_iff.mp found).resolve_left ?_⟩
  intro same
  have last := congrArg List.getLast? same
  rw [List.getLast?_concat] at last
  simp only [List.mem_cons, List.not_mem_nil, or_false] at mem
  rcases mem with rfl | rfl | rfl <;> exact absurd last (by decide)

theorem script_split (c : Configuration) :
    ∃ rest : String, c.script =
        Section.preamble c.package ++ (Section.errors c.errors ++ rest) ∧
      BeginsOther rest.toList := by
  have begins := beginsOther_rest c
  have ne : (String.join (c.sections.drop 2)).toList ≠ [] := by
    obtain ⟨start, mem, found⟩ := begins
    intro empty
    rw [empty, List.prefix_nil] at found
    simp only [List.mem_cons, List.not_mem_nil, or_false] at mem
    rcases mem with rfl | rfl | rfl <;> exact absurd found (by decide)
  -- The line end that the sections have and the script has not is the last character behind them.
  obtain ⟨front, last, cut⟩ := (List.eq_nil_or_concat' _).resolve_left ne
  have whole := script_append_newline c
  have joined : (String.join c.sections).toList = ((Section.preamble c.package).toList ++
      ((Section.errors c.errors).toList ++ front)) ++ [last] := by
    have apart : String.join c.sections = Section.preamble c.package ++
        (Section.errors c.errors ++ String.join (c.sections.drop 2)) := by
      simp [Configuration.sections]
    rw [apart, String.toList_append, String.toList_append, cut]
    simp only [List.append_assoc]
  rw [joined] at whole
  obtain ⟨same, lineEnd⟩ := List.append_inj' whole rfl
  cases lineEnd
  refine ⟨String.ofList front, ?_, ?_⟩
  · apply String.ext
    rw [same]
    simp
  · rw [String.toList_ofList]
    rw [cut] at begins
    exact beginsOther_of_append_newline begins

/-- The errors behind the preamble for the given package. -/
def readErrors? (package script : String) : Option (List String) :=
  ((Section.preamble package).toList.isPrefixOf? script.toList).map (fatals .line)

/-- Behind the preamble of every script its errors are read back, in order and as they were
recorded, and what follows them does not begin with a further one. So different errors make
different sections, and the errors of a description are those in its script. -/
theorem errors_read_back :
    (∀ c : Configuration, ∃ rest : String,
      c.script = Section.preamble c.package ++ (Section.errors c.errors ++ rest) ∧
      fatals .line (Section.errors c.errors ++ rest).toList = c.errors ∧
      fatals .line (Section.errors c.errors).toList = c.errors ∧ fatals .line rest.toList = []) ∧
    Function.Injective Section.errors ∧
    ∀ d : Description, readErrors? d.package d.generate.script = some d.generate.errors := by
  have split : ∀ c : Configuration, ∃ rest : String,
      c.script = Section.preamble c.package ++ (Section.errors c.errors ++ rest) ∧
      fatals .line (Section.errors c.errors ++ rest).toList = c.errors ∧
      fatals .line (Section.errors c.errors).toList = c.errors ∧ fatals .line rest.toList = [] := by
    intro c
    obtain ⟨rest, same, begins⟩ := script_split c
    have none := fatals_of_beginsOther begins
    have alone := fatals_errors c.errors []
    refine ⟨rest, same, ?_, by simpa [fatals] using alone, none⟩
    rw [String.toList_append, fatals_errors, none, List.append_nil]
  refine ⟨split, errors_injective, ?_⟩
  intro d
  obtain ⟨rest, same, read, -, -⟩ := split d.configure
  have found : (Section.preamble d.package).toList.isPrefixOf? d.generate.script.toList =
      some (Section.errors d.configure.errors ++ rest).toList := by
    rw [List.isPrefixOf?_eq_some_iff_append_eq, ← String.toList_append, ← d.configure_package]
    exact congrArg String.toList same.symm
  rw [readErrors?, found, Option.map_some, read]
  rfl

end CMakeScript
