import CMakeScript.Proofs.SectionReading

/-!
# The preamble is read as intended

The preamble is fixed but for the name of the package, so its lines are read by evaluation:
`reads_preamble`.
-/

namespace CMakeScript

open Lexer Statement

theorem row_project {package : String} (h : isName package = true) :
    Row ("project(" ++ package ++ " C CXX)").toList [⟨"project", [package, "C", "CXX"]⟩] := by
  have text : "project(" ++ package ++ " C CXX)" =
      Directive.text ⟨"project", [package, "C", "CXX"]⟩ := by
    apply String.ext
    simp [Directive.text]
  have command : IsCommand "project" := by decide
  have c : IsPlain "C" := by decide
  have cxx : IsPlain "CXX" := by decide
  rw [text]
  exact row_text command (by simp [isPlain_of_isName h, c, cxx])

/-- The lines of the preamble with what they are read as. -/
def preambleLines (package : String) : List (String × List Directive) :=
  let path (name value help : String) : Directive := ⟨"set", [name, value, "CACHE", "PATH", help]⟩
  [("# Generated CMake file begin", []),
   ("cmake_minimum_required(VERSION 3.1)", [⟨"cmake_minimum_required", ["VERSION", "3.1"]⟩]),
   ("", []),
   ("project(" ++ package ++ " C CXX)", [⟨"project", [package, "C", "CXX"]⟩]),
   ("", []),
   ("find_package(Lua)", [⟨"find_package", ["Lua"]⟩]),
   ("", []),
   ("## INSTALL DEFAULTS (Relative to CMAKE_INSTALL_PREFIX)", []),
   ("# Primary paths", []),
   ("set(INSTALL_BIN bin CACHE PATH \"Where to install binaries to.\")",
     [path "INSTALL_BIN" "bin" "Where to install binaries to."]),
   ("set(INSTALL_LIB lib CACHE PATH \"Where to install libraries to.\")",
     [path "INSTALL_LIB" "lib" "Where to install libraries to."]),
   ("set(INSTALL_ETC etc CACHE PATH \"Where to store configuration files\")",
     [path "INSTALL_ETC" "etc" "Where to store configuration files"]),
   ("set(INSTALL_SHARE share CACHE PATH \"Directory for shared data.\")",
     [path "INSTALL_SHARE" "share" "Directory for shared data."]),
   ("", []),
   ("set(INSTALL_LMOD " ++ reference "INSTALL_LIB" ++
       "/lua CACHE PATH \"Directory to install Lua modules.\")",
     [path "INSTALL_LMOD" (reference "INSTALL_LIB" ++ "/lua") "Directory to install Lua modules."]),
   ("set(INSTALL_CMOD " ++ reference "INSTALL_LIB" ++
       "/lua CACHE PATH \"Directory to install Lua binary modules.\")",
     [path "INSTALL_CMOD" (reference "INSTALL_LIB" ++ "/lua")
       "Directory to install Lua binary modules."])]

theorem row_comment {text : List Char} (h : '\n' ∉ text) : Row ('#' :: text) [] := by
  have inside (rest : List Char) (line : '\n' ∉ rest) : Reads .comment rest [] .comment := by
    induction rest with
    | nil => exact .nil _
    | cons c more ih =>
      simp only [List.mem_cons, not_or] at line
      have next : step .comment c = some (.comment, none) := by
        simp [step, Ne.symm line.1]
      exact .cons next (ih line.2)
  have hash : step .line '#' = some (.comment, none) := by decide
  exact ⟨.comment, .cons hash (inside text h), rfl⟩

theorem row_fixed {s : String} {text : List Char} {ds : List Directive}
    (h : s = String.ofList text) (reading : Reads .line text ds .done) : Row s.toList ds := by
  rw [toList_of_eq_ofList h]
  exact reading.row

theorem row_fixed_comment {s : String} {text : List Char} (h : s = String.ofList ('#' :: text))
    (line : '\n' ∉ text) : Row s.toList [] := by
  rw [toList_of_eq_ofList h]
  exact row_comment line

/-- A fixed line around the directory of libraries. -/
theorem row_fixed_library {s t : String} {a b : List Char} {ds : List Directive}
    (hs : s = String.ofList a) (ht : t = String.ofList b)
    (reading : Reads .line (a ++ ((reference "INSTALL_LIB").toList ++ b)) ds .done) :
    Row (s ++ reference "INSTALL_LIB" ++ t).toList ds := by
  rw [String.toList_append, String.toList_append, toList_of_eq_ofList hs, toList_of_eq_ofList ht,
    List.append_assoc]
  exact reading.row

theorem row_preambleLines {package : String} (h : isName package = true) :
    ∀ row ∈ preambleLines package, Row row.1.toList row.2 := by
  intro row mem
  simp only [preambleLines, List.mem_cons, List.not_mem_nil, or_false] at mem
  rcases mem with rfl | rfl | rfl | rfl | rfl | rfl | rfl | rfl | rfl | rfl | rfl | rfl | rfl |
    rfl | rfl | rfl
  · exact row_fixed_comment rfl (by decide)
  · exact row_fixed rfl (by decide)
  · exact .nil
  · exact row_project h
  · exact .nil
  · exact row_fixed rfl (by decide)
  · exact .nil
  · exact row_fixed_comment rfl (by decide)
  · exact row_fixed_comment rfl (by decide)
  · exact row_fixed rfl (by decide +kernel)
  · exact row_fixed rfl (by decide +kernel)
  · exact row_fixed rfl (by decide +kernel)
  · exact row_fixed rfl (by decide +kernel)
  · exact .nil
  · exact row_fixed_library rfl rfl (by decide +kernel)
  · exact row_fixed_library rfl rfl (by decide +kernel)

theorem preamble_eq_lines (package : String) :
    Section.preamble package = paragraph ((preambleLines package).map (·.1)) := by
  unfold Section.preamble preambleLines
  simp only [List.map_cons, List.map_nil]

theorem directives_preamble (package : String) :
    directivesOf (Program.preamble package) = (preambleLines package).flatMap (·.2) := rfl

theorem reads_preamble {package : String} (h : isName package = true) :
    Reads .line (Section.preamble package).toList (directivesOf (Program.preamble package))
      .line := by
  rw [preamble_eq_lines, directives_preamble]
  exact reads_paragraph (preambleLines package) (row_preambleLines h)

end CMakeScript
