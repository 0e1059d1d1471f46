import CMakeScript.Proofs.Lexer
import CMakeScript.Script

/-!
# The end of a script

A section is empty or ends in a closing parenthesis and a blank line, whatever the texts in it hold.
So trimming takes no character of a text with it, and the script is the sections without their last
line end: `script_of_sections`.
-/

namespace CMakeScript

/-- The text is empty or ends in a closing parenthesis and a blank line. -/
def EndsBlank (text : String) : Prop :=
  text = "" ∨ ∃ body, text.toList = body ++ [')', '\n', '\n']

def EndsClosed (text : String) : Prop := ∃ body, text.toList = body ++ [')']

theorem endsClosed_append (text : String) : EndsClosed (text ++ ")") :=
  ⟨text.toList, by simp⟩

theorem EndsClosed.of_append (a : String) {b : String} (h : EndsClosed b) :
    EndsClosed (a ++ b) := by
  obtain ⟨body, cut⟩ := h
  exact ⟨a.toList ++ body, by simp [cut]⟩

theorem EndsClosed.blank {text : String} (h : EndsClosed text) : EndsBlank (text ++ "\n\n") := by
  obtain ⟨body, cut⟩ := h
  exact .inr ⟨body, by simp [cut]⟩

theorem EndsBlank.append {a b : String} (first : EndsBlank a) (second : EndsBlank b) :
    EndsBlank (a ++ b) := by
  rcases second with rfl | ⟨body, cut⟩
  · rwa [String.append_empty]
  · exact .inr ⟨a.toList ++ body, by simp [cut]⟩

theorem EndsBlank.join {texts : List String} (each : ∀ text ∈ texts, EndsBlank text) :
    EndsBlank (String.join texts) := by
  induction texts with
  | nil => exact .inl String.join_nil
  | cons text rest ih =>
    rw [String.join_cons]
    exact (each text List.mem_cons_self).append
      (ih fun other mem => each other (List.mem_cons_of_mem _ mem))

theorem endsClosed_intercalate (separator : String) {lines : List String} (ne : lines ≠ [])
    (last : ∀ line ∈ lines.getLast?, EndsClosed line) :
    EndsClosed (separator.intercalate lines) := by
  induction lines with
  | nil => exact absurd rfl ne
  | cons line rest ih =>
    cases rest with
    | nil =>
      rw [String.intercalate_singleton]
      exact last line rfl
    | cons next more =>
      rw [String.intercalate_cons_cons]
      exact (ih (by simp) (by simpa using last)).of_append _

theorem paragraph_end {lines : List String} (ne : lines ≠ [])
    (last : ∀ line ∈ lines.getLast?, EndsClosed line) :
    ∃ body, (paragraph lines).toList = body ++ [')', '\n', '\n'] := by
  obtain ⟨body, cut⟩ := endsClosed_intercalate "\n" ne last
  have filled : lines.isEmpty = false := by simpa using ne
  exact ⟨body, by simp [paragraph, filled, cut]⟩

theorem endsBlank_paragraph {lines : List String}
    (last : ∀ line ∈ lines.getLast?, EndsClosed line) : EndsBlank (paragraph lines) := by
  by_cases empty : lines = []
  · subst empty
    exact .inl rfl
  · exact .inr (paragraph_end empty last)

theorem endsBlank_paragraph_map {α : Type} (items : List α) {text : α → String}
    (each : ∀ item, EndsClosed (text item)) : EndsBlank (paragraph (items.map text)) := by
  refine endsBlank_paragraph fun line mem => ?_
  obtain ⟨item, -, rfl⟩ := List.mem_map.mp (List.mem_of_getLast? mem)
  exact each item

theorem endsBlank_conditional (condition body : String) :
    EndsBlank (conditional condition body) := by
  right
  refine ⟨"if (".toList ++ condition.toList ++ ")\n".toList ++
    Text.indentLines blockIndent.toList body.toList ++ "\nendif(".toList, ?_⟩
  unfold conditional
  generalize Text.indentLines blockIndent.toList body.toList = text
  simp

theorem endsClosed_fatalError (message : String) : EndsClosed (fatalError message) :=
  endsClosed_append _

theorem endsClosed_nativeLibrary (name : String) : EndsClosed (Section.nativeLibrary name) := by
  refine endsClosed_intercalate "\n" (by simp) fun line mem => ?_
  have same : line = "install(TARGETS " ++ name ++ " DESTINATION " ++ reference "INSTALL_CMOD" ++
      ")" := (Option.some.inj mem).symm
  rw [same]
  exact endsClosed_append _

theorem endsBlank_platformBlocks {α : Type} (separator : String) (lines : α → List String)
    (entries : List (Platform × α)) :
    EndsBlank (Section.platformBlocks separator lines entries) := by
  refine .join fun text mem => ?_
  obtain ⟨entry, -, rfl⟩ := List.mem_map.mp mem
  split
  · exact .inl rfl
  · exact endsBlank_conditional _ _

theorem endsBlank_preamble (package : String) : EndsBlank (Section.preamble package) := by
  refine endsBlank_paragraph fun line mem => ?_
  have same := (Option.some.inj mem).symm
  rw [same]
  refine .of_append _ ⟨"/lua CACHE PATH \"Directory to install Lua binary modules.\"".toList, ?_⟩
  rw [Lexer.toList_of_eq_ofList rfl, Lexer.toList_of_eq_ofList rfl]
  rfl

theorem installCopy_end :
    ∃ body, Section.installCopy.toList = body ++ [')', '\n', '\n'] := by
  refine paragraph_end (by simp) fun line mem => ?_
  have same := (Option.some.inj mem).symm
  rw [same]
  exact endsClosed_append _

theorem endsBlank_join_map {α : Type} (items : List α) {text : α → String}
    (each : ∀ item, EndsBlank (text item)) : EndsBlank (String.join (items.map text)) := by
  refine .join fun whole mem => ?_
  obtain ⟨item, -, rfl⟩ := List.mem_map.mp mem
  exact each item

theorem endsBlank_sections (c : Configuration) : ∀ text ∈ c.sections, EndsBlank text := by
  intro text mem
  simp only [Configuration.sections, List.mem_cons, List.not_mem_nil, or_false] at mem
  rcases mem with rfl | rfl | rfl | rfl | rfl | rfl | rfl | rfl | rfl | rfl | rfl
  · exact endsBlank_preamble _
  · exact endsBlank_join_map _ fun message => (endsClosed_fatalError message).blank
  · exact endsBlank_join_map _ fun p => endsBlank_conditional _ _
  · unfold Section.restriction
    split
    · exact .inl rfl
    · exact endsBlank_conditional _ _
  · exact endsBlank_paragraph_map _ fun _ => endsClosed_append _
  · exact endsBlank_platformBlocks _ _ _
  · exact .inr installCopy_end
  · exact endsBlank_paragraph_map _ fun _ => endsClosed_append _
  · exact endsBlank_platformBlocks _ _ _
  · exact endsBlank_join_map _ fun name => (endsClosed_nativeLibrary name).blank
  · exact endsBlank_platformBlocks _ _ _

theorem sections_end (c : Configuration) :
    ∃ body, (String.join c.sections).toList = body ++ [')', '\n', '\n'] := by
  -- The rules that install listed files are always there, and only modules come after them.
  have cut : String.join c.sections = String.join (c.sections.take 6) ++
      (Section.installCopy ++ String.join (c.sections.drop 7)) := by
    simp [Configuration.sections, String.append_assoc]
  have tail : EndsBlank (String.join (c.sections.drop 7)) :=
    .join fun text mem => endsBlank_sections c text (List.mem_of_mem_drop mem)
  obtain ⟨copied, hcopied⟩ := installCopy_end
  rw [cut]
  rcases tail with empty | ⟨body, ends⟩
  · exact ⟨(String.join (c.sections.take 6)).toList ++ copied, by rw [empty]; simp [hcopied]⟩
  · exact ⟨(String.join (c.sections.take 6)).toList ++ (Section.installCopy.toList ++ body), by
      rw [String.toList_append, String.toList_append, ends]
      simp⟩

theorem trimEnd_closed (body : List Char) :
    Text.trimEnd (body ++ [')', '\n', '\n']) = body ++ [')'] := by
  have blank : Text.isBlank '\n' = true := by decide
  have closed : Text.isBlank ')' = false := by decide
  rw [show body ++ [')', '\n', '\n'] = body ++ [')'] ++ ['\n'] ++ ['\n'] by simp,
    Text.trimEnd_append_blank _ _ blank, Text.trimEnd_append_blank _ _ blank,
    Text.trimEnd_append_of_not_blank _ _ closed]

theorem script_end {c : Configuration} {body : List Char}
    (ends : (String.join c.sections).toList = body ++ [')', '\n', '\n']) :
    c.script.toList = body ++ [')', '\n'] := by
  rw [Configuration.script, ends, trimEnd_closed]
  simp

/-- Trimming takes one line end off the sections and nothing else. -/
theorem script_append_newline (c : Configuration) :
    c.script.toList ++ ['\n'] = (String.join c.sections).toList := by
  obtain ⟨body, ends⟩ := sections_end c
  rw [script_end ends, ends]
  simp

/-- Each of the eleven sections ends in a blank line if it is not empty. Together they end in a
parenthesis and two line ends, of which trimming takes both and the script has one again. -/
theorem script_of_sections (c : Configuration) :
    c.sections.length = 11 ∧ (∀ text ∈ c.sections, EndsBlank text) ∧
      c.script.toList = (String.join c.sections).toList.dropLast ∧
      ∃ body, (String.join c.sections).toList = body ++ [')', '\n', '\n'] ∧
        Text.trimEnd (String.join c.sections).toList = body ++ [')'] ∧
        c.script.toList = body ++ [')', '\n'] := by
  obtain ⟨body, ends⟩ := sections_end c
  have shorter : c.script.toList = (String.join c.sections).toList.dropLast := by
    rw [← script_append_newline c, List.dropLast_concat]
  exact ⟨rfl, endsBlank_sections c, shorter, body, ends, by rw [ends, trimEnd_closed],
    script_end ends⟩

end CMakeScript
