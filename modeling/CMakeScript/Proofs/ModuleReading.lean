import CMakeScript.Proofs.SectionReading

/-!
# Install rules and modules are read as intended

The rules of a script that install files and build modules have only unquoted arguments, and these
are plain because modules have names. `reads_scripts` and `reads_natives` say what the rules of
modules are read as, `reads_platformScripts` and `reads_platformNatives` within blocks.
-/

namespace CMakeScript

open Lexer Statement

/-! ### Rules with unquoted arguments -/

theorem reads_installCopy :
    Reads .line Section.installCopy.toList (directivesOf Program.installCopy) .line := by
  have directory (a b : String) : "install(DIRECTORY " ++ a ++ " DESTINATION " ++ b ++ ")" =
      Directive.text ⟨"install", ["DIRECTORY", a, "DESTINATION", b]⟩ := by
    apply String.ext
    simp [Directive.text]
  have files (a b : String) : "install(FILES " ++ a ++ " DESTINATION " ++ b ++ ")" =
      Directive.text ⟨"install", ["FILES", a, "DESTINATION", b]⟩ := by
    apply String.ext
    simp [Directive.text]
  have programs (a b : String) : "install(PROGRAMS " ++ a ++ " DESTINATION " ++ b ++ ")" =
      Directive.text ⟨"install", ["PROGRAMS", a, "DESTINATION", b]⟩ := by
    apply String.ext
    simp [Directive.text]
  unfold Section.installCopy
  rw [directory, files, files, files, programs]
  have row (kind name place : String) (hkind : IsPlain kind) (hname : name.toList.all isBare = true)
      (hplace : place.toList.all isBare = true) :
      Row
        (Directive.text ⟨"install", [kind, reference name, "DESTINATION", reference place]⟩).toList
        [⟨"install", [kind, reference name, "DESTINATION", reference place]⟩] := by
    have command : IsCommand "install" := by decide
    refine row_text command fun word mem => ?_
    simp only [List.mem_cons, List.not_mem_nil, or_false] at mem
    rcases mem with rfl | rfl | rfl | rfl
    · exact hkind
    · exact isPlain_reference hname
    · decide
    · exact isPlain_reference hplace
  have each : ∀ d ∈ directivesOf Program.installCopy, Row (Directive.text d).toList [d] := by
    intro d mem
    simp only [Program.installCopy, Program.installList, Program.directive, directivesOf,
      directives, List.append_nil, List.cons_append, List.nil_append, List.mem_cons,
      List.not_mem_nil, or_false] at mem
    rcases mem with rfl | rfl | rfl | rfl | rfl <;>
      exact row _ _ _ (by decide) (by decide) (by decide)
  have whole := reads_paragraph (directivesOf Program.installCopy) each
  rwa [List.flatMap_singleton'] at whole

theorem mem_of_mem_moduleParts {name part : String} (h : part ∈ Section.moduleParts name) {c : Char}
    (mem : c ∈ part.toList) : c ∈ name.toList := by
  obtain ⟨field, inside, rfl⟩ := List.mem_map.mp h
  rw [String.toList_ofList] at mem
  exact Text.mem_of_mem_fields inside mem

theorem all_isBare_moduleParts {name : String} (h : isName name = true) :
    ∀ part ∈ Section.moduleParts name, part.toList.all isBare = true := by
  intro part mem
  rw [List.all_eq_true]
  intro c found
  exact List.all_eq_true.mp (all_isBare_of_isName h) c (mem_of_mem_moduleParts mem found)

theorem isPlain_scriptDirectory {name : String} (h : isName name = true) :
    IsPlain (Section.scriptDirectory name) := by
  have root : (reference "INSTALL_LMOD").toList.all isBare = true := by decide
  have parts : ∀ part ∈ reference "INSTALL_LMOD" :: (Section.moduleParts name).dropLast,
      part.toList.all isBare = true := by
    intro part mem
    rcases List.mem_cons.mp mem with rfl | inside
    · exact root
    · exact all_isBare_moduleParts h part (List.dropLast_subset _ inside)
  refine ⟨?_, ?_⟩
  · rw [Section.scriptDirectory]
    cases (Section.moduleParts name).dropLast <;>
      simp [String.toList_intercalate, List.intercalate, reference]
  · rw [List.all_eq_true]
    intro c mem
    obtain between | ⟨part, inside, found⟩ := Text.mem_of_mem_intercalate mem
    · rw [List.mem_singleton.mp between]
      decide
    · exact List.all_eq_true.mp (parts part inside) c found

theorem isPlain_scriptFile {name : String} (h : isName name = true) :
    IsPlain (Section.scriptFile name) := by
  have leaf : ((Section.moduleParts name).getLastD "").toList.all isBare = true := by
    rw [List.getLastD_eq_getLast?]
    cases last : (Section.moduleParts name).getLast? with
    | none => rfl
    | some part => exact all_isBare_moduleParts h part (List.mem_of_getLast? last)
  refine ⟨by simp [Section.scriptFile], ?_⟩
  rw [Section.scriptFile, all_isBare_append, leaf]
  decide

theorem line_scriptInstall {name : String} (h : isName name = true) :
    Line (Section.scriptInstall name).toList (directivesOf [Program.scriptInstall name]) := by
  have rule (a b c : String) :
      "install(FILES " ++ a ++ " DESTINATION " ++ b ++ " RENAME " ++ c ++ ")" =
        Directive.text ⟨"install", ["FILES", a, "DESTINATION", b, "RENAME", c]⟩ := by
    apply String.ext
    simp [Directive.text]
  have text : Section.scriptInstall name = _ := rule _ _ _
  have command : IsCommand "install" := by decide
  rw [text]
  refine line_text command fun word mem => ?_
  simp only [List.mem_cons, List.not_mem_nil, or_false] at mem
  have sources : (Variable.sources name).toList.all isBare = true := by
    rw [Variable.sources, all_isBare_append, all_isBare_of_isName h]
    decide
  rcases mem with rfl | rfl | rfl | rfl | rfl | rfl
  · decide
  · exact isPlain_reference sources
  · decide
  · exact isPlain_scriptDirectory h
  · decide
  · exact isPlain_scriptFile h

theorem reads_scripts {names : List String} (h : ∀ name ∈ names, isName name = true) :
    Reads .line (Section.scripts names).toList (directivesOf (Program.scripts names)) .line := by
  unfold Section.scripts Program.scripts
  rw [directivesOf_map]
  exact reads_paragraph names fun name mem => (line_scriptInstall (h name mem)).row

theorem reads_platformScripts {entries : List (Platform × List String)} {defaults : List String}
    (h : ∀ entry ∈ entries, ∀ name ∈ entry.2, isName name = true) :
    Reads .line (Section.platformScripts entries defaults).toList
      (directivesOf (Program.platformScripts entries defaults)) .line := by
  refine reads_platformBlocks 0 rfl (Section.platformOnly defaults) entries
    fun entry mem name inside => ?_
  have named := h entry mem name (List.mem_filter.mp inside |>.1)
  exact (line_scriptInstall named).indentLines

/-! ### Native modules -/

/-- The lines of the library of a native module with what they are read as. -/
def nativeLines (name : String) : List (String × List Directive) :=
  let plain (command : String) (arguments : List String) : String × List Directive :=
    (Directive.text ⟨command, arguments⟩, [⟨command, arguments⟩])
  let search : Directive := ⟨"find_library",
    [reference "LIBRARY", reference "LIBRARY", reference (Variable.libdirs name)]⟩
  [plain "add_library" [name, reference (Variable.sources name)],
   ("", []),
   plain "foreach" ["LIBRARY", reference (Variable.libraries name)],
   (blockIndent ++ search.text, [search]),
   plain "endforeach" ["LIBRARY"],
   ("", []),
   plain "target_include_directories" [name, "PRIVATE", reference (Variable.incdirs name)],
   plain "target_compile_definitions" [name, "PRIVATE", reference (Variable.defines name)],
   plain "target_link_libraries" [name, "PRIVATE", reference (Variable.libraries name)],
   plain "install" ["TARGETS", name, "DESTINATION", reference "INSTALL_CMOD"]]

theorem nativeLibrary_eq_lines (name : String) :
    Section.nativeLibrary name = "\n".intercalate ((nativeLines name).map (·.1)) := by
  unfold Section.nativeLibrary nativeLines
  generalize reference (Variable.sources name) = sources
  generalize reference (Variable.libraries name) = libraries
  generalize reference (Variable.libdirs name) = libdirs
  generalize reference (Variable.incdirs name) = incdirs
  generalize reference (Variable.defines name) = defines
  generalize reference "LIBRARY" = library
  generalize reference "INSTALL_CMOD" = place
  apply String.ext
  simp [Directive.text, blockIndent]

theorem directives_nativeLibrary (name : String) :
    directivesOf (Program.nativeLibrary name) = (nativeLines name).flatMap (·.2) := rfl

theorem line_nativeLines {name : String} (h : isName name = true) :
    ∀ row ∈ nativeLines name, Line row.1.toList row.2 := by
  have bare := all_isBare_of_isName h
  have plain := isPlain_of_isName h
  have suffixed (suffix : String) (hs : suffix.toList.all isBare = true) :
      IsPlain (reference (name ++ suffix)) := by
    apply isPlain_reference
    rw [all_isBare_append, bare, hs, Bool.and_self]
  have sources : IsPlain (reference (Variable.sources name)) := suffixed "_SOURCES" (by decide)
  have libraries : IsPlain (reference (Variable.libraries name)) :=
    suffixed "_LIBRARIES" (by decide)
  have libdirs : IsPlain (reference (Variable.libdirs name)) := suffixed "_LIBDIRS" (by decide)
  have incdirs : IsPlain (reference (Variable.incdirs name)) := suffixed "_INCDIRS" (by decide)
  have defines : IsPlain (reference (Variable.defines name)) := suffixed "_DEFINES" (by decide)
  have library : IsPlain (reference "LIBRARY") := isPlain_reference (by decide)
  have place : IsPlain (reference "INSTALL_CMOD") := isPlain_reference (by decide)
  have item : IsPlain "LIBRARY" := by decide
  have visibility : IsPlain "PRIVATE" := by decide
  have kind : IsPlain "TARGETS" := by decide
  have destination : IsPlain "DESTINATION" := by decide
  have line (command : String) (hc : IsCommand command) (words : List String)
      (hw : ∀ word ∈ words, IsPlain word) :
      Line (Directive.text ⟨command, words⟩).toList [⟨command, words⟩] :=
    line_text hc hw
  have search := line "find_library" (by decide)
    [reference "LIBRARY", reference "LIBRARY", reference (Variable.libdirs name)]
    (by simp [library, libdirs])
  intro row mem
  simp only [nativeLines, List.mem_cons, List.not_mem_nil, or_false] at mem
  rcases mem with rfl | rfl | rfl | rfl | rfl | rfl | rfl | rfl | rfl | rfl
  · exact line _ (by decide) _ (by simp [plain, sources])
  · exact .nil
  · exact line _ (by decide) _ (by simp [item, libraries])
  · rw [String.toList_append]
    exact search.indented
  · exact line _ (by decide) _ (by simp [item])
  · exact .nil
  · exact line _ (by decide) _ (by simp [plain, visibility, incdirs])
  · exact line _ (by decide) _ (by simp [plain, visibility, defines])
  · exact line _ (by decide) _ (by simp [plain, visibility, libraries])
  · exact line _ (by decide) _ (by simp [kind, plain, destination, place])

theorem rows_nativeLibrary {name : String} (h : isName name = true) :
    Row (Section.nativeLibrary name).toList (directivesOf (Program.nativeLibrary name)) ∧
    Row (Text.indentLines blockIndent.toList (Section.nativeLibrary name).toList)
      (directivesOf (Program.nativeLibrary name)) := by
  have lines := line_nativeLines h
  have text : (Section.nativeLibrary name).toList =
      (List.replicate (0 + 1) '\n').intercalate ((nativeLines name).map (·.1.toList)) := by
    rw [nativeLibrary_eq_lines, String.toList_intercalate, List.map_map]
    rfl
  rw [directives_nativeLibrary, text, indentLines_intercalate, List.map_map]
  exact ⟨Row.intercalate 0 _ fun row mem => (lines row mem).row,
    Row.intercalate 0 _ fun row mem => (lines row mem).indentLines⟩

theorem reads_natives {names : List String} (h : ∀ name ∈ names, isName name = true) :
    Reads .line (Section.natives names).toList (directivesOf (Program.natives names)) .line := by
  unfold Section.natives Program.natives
  rw [String.toList_join, List.flatMap_map, directivesOf_flatMap]
  refine Reads.flatten names fun name mem => ?_
  have whole := (rows_nativeLibrary (h name mem)).1.paragraph
  rw [String.toList_append]
  exact whole

theorem reads_platformNatives {entries : List (Platform × List String)} {defaults : List String}
    (h : ∀ entry ∈ entries, ∀ name ∈ entry.2, isName name = true) :
    Reads .line (Section.platformNatives entries defaults).toList
      (directivesOf (Program.platformNatives entries defaults)) .line := by
  refine reads_platformBlocks 1 rfl (Section.platformOnly defaults) entries
    fun entry mem name inside => ?_
  have named := h entry mem name (List.mem_filter.mp inside).1
  exact (rows_nativeLibrary named).2

end CMakeScript
