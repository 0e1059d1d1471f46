import CMakeScript.Proofs.Indentation
import CMakeScript.Proofs.Statement

/-!
# The program of a script

What the sections of a script are to do, as statements. `SectionReading` shows that their texts are
read as these statements.
-/

namespace CMakeScript

/-- Bindings whose values are written as lists. -/
def written (bindings : List (String × List String)) : List (String × String) :=
  bindings.map fun binding => (binding.1, Argument.renderList binding.2)

theorem written_isEmpty (bindings : List (String × List String)) :
    (written bindings).isEmpty = bindings.isEmpty :=
  List.isEmpty_map

namespace Program

def directive (name : String) (arguments : List String) : Statement :=
  .directive ⟨name, arguments⟩

def fatal (message : String) : Statement := directive "message" ["FATAL_ERROR", message]

def cachePath (name value help : String) : Statement :=
  directive "set" [name, value, "CACHE", "PATH", help]

def preamble (package : String) : List Statement :=
  [directive "cmake_minimum_required" ["VERSION", "3.1"],
   directive "project" [package, "C", "CXX"],
   directive "find_package" ["Lua"],
   cachePath "INSTALL_BIN" "bin" "Where to install binaries to.",
   cachePath "INSTALL_LIB" "lib" "Where to install libraries to.",
   cachePath "INSTALL_ETC" "etc" "Where to store configuration files",
   cachePath "INSTALL_SHARE" "share" "Directory for shared data.",
   cachePath "INSTALL_LMOD" (reference "INSTALL_LIB" ++ "/lua") "Directory to install Lua modules.",
   cachePath "INSTALL_CMOD" (reference "INSTALL_LIB" ++ "/lua")
     "Directory to install Lua binary modules."]

def errors (messages : List String) : List Statement := messages.map fatal

def exclusions (platforms : List Platform) : List Statement :=
  platforms.map fun p => .conditional [p.token]
    [fatal "Unsupported platform (your platform was explicitly marked as not supported)"]

/-- The condition that holds on none of the platforms. -/
def noneOf : List Platform → List String
  | [] => []
  | [p] => ["NOT", p.token]
  | p :: rest => "NOT" :: p.token :: "AND" :: noneOf rest

/-- A fatal error on all platforms but the given ones. No platforms make no error. -/
def restriction (platforms : List Platform) : List Statement :=
  if platforms.isEmpty then []
  else [.conditional (noneOf platforms)
    [fatal "Unsupported platform (your platform is not in list of supported platforms)"]]

def assignment (name : String) (items : List String) : Statement :=
  directive "set" (name :: items)

def assignments (entries : List (String × List String)) : List Statement :=
  entries.map fun entry => assignment entry.1 entry.2

/-- A block for each platform for which there is something to do. -/
def platformBlocks {α β : Type} (parts : α → List β) (body : β → List Statement)
    (entries : List (Platform × α)) : List Statement :=
  entries.flatMap fun entry =>
    if (parts entry.2).isEmpty then []
    else [.conditional [entry.1.token] ((parts entry.2).flatMap body)]

/-- The variables set on single platforms. Their values have been indented. -/
def platformAssignments (entries : List (Platform × List (String × List String))) :
    List Statement :=
  platformBlocks id (fun entry => [assignment entry.1 (entry.2.map reindent)]) entries

def installList (kind name directory : String) : Statement :=
  directive "install" [kind, reference name, "DESTINATION", reference directory]

def installCopy : List Statement :=
  [installList "DIRECTORY" Variable.copyDirectories "CMAKE_INSTALL_PREFIX",
   installList "FILES" Variable.installLua "INSTALL_LMOD",
   installList "FILES" Variable.installLib "INSTALL_LIB",
   installList "FILES" Variable.installConf "INSTALL_ETC",
   installList "PROGRAMS" Variable.installBin "INSTALL_BIN"]

def scriptInstall (name : String) : Statement :=
  directive "install" ["FILES", reference (Variable.sources name), "DESTINATION",
    Section.scriptDirectory name, "RENAME", Section.scriptFile name]

def scripts (names : List String) : List Statement := names.map scriptInstall

def platformScripts (entries : List (Platform × List String)) (defaults : List String) :
    List Statement :=
  platformBlocks (Section.platformOnly defaults) (fun name => [scriptInstall name]) entries

def nativeLibrary (name : String) : List Statement :=
  [directive "add_library" [name, reference (Variable.sources name)],
   .loop ["LIBRARY", reference (Variable.libraries name)]
     [directive "find_library"
       [reference "LIBRARY", reference "LIBRARY", reference (Variable.libdirs name)]]
     ["LIBRARY"],
   directive "target_include_directories" [name, "PRIVATE", reference (Variable.incdirs name)],
   directive "target_compile_definitions" [name, "PRIVATE", reference (Variable.defines name)],
   directive "target_link_libraries" [name, "PRIVATE", reference (Variable.libraries name)],
   directive "install" ["TARGETS", name, "DESTINATION", reference "INSTALL_CMOD"]]

def natives (names : List String) : List Statement := names.flatMap nativeLibrary

def platformNatives (entries : List (Platform × List String)) (defaults : List String) :
    List Statement :=
  platformBlocks (Section.platformOnly defaults) nativeLibrary entries

/-- There is no block for a platform with nothing to do. -/
theorem platformBlocks_filter {α β σ : Type} {parts : α → List β} (body : β → List Statement)
    {keep : σ → Bool} {value : σ → α}
    (h : ∀ s, keep s = false → (parts (value s)).isEmpty = true) (entries : List (Platform × σ)) :
    platformBlocks parts body
        ((entries.filter fun entry => keep entry.2).map fun entry => (entry.1, value entry.2)) =
      platformBlocks parts body (entries.map fun entry => (entry.1, value entry.2)) := by
  unfold platformBlocks
  induction entries with
  | nil => rfl
  | cons entry rest ih =>
    rw [List.map_cons, List.flatMap_cons, ← ih, List.filter_cons]
    cases kept : keep entry.2 with
    | true => rfl
    | false => rw [if_pos (h entry.2 kept), List.nil_append, if_neg Bool.false_ne_true]

/-! ### Directives that stand alone open no block -/

open Statement

theorem arePlain_errors (messages : List String) : arePlain (errors messages) = true := by
  rw [arePlain_iff]
  intro s mem
  obtain ⟨message, -, rfl⟩ := List.mem_map.mp mem
  rfl

theorem arePlain_exclusions (platforms : List Platform) :
    arePlain (exclusions platforms) = true := by
  rw [arePlain_iff]
  intro s mem
  obtain ⟨p, -, rfl⟩ := List.mem_map.mp mem
  rfl

theorem arePlain_restriction (platforms : List Platform) :
    arePlain (restriction platforms) = true := by
  unfold restriction
  split <;> rfl

theorem arePlain_assignments (entries : List (String × List String)) :
    arePlain (assignments entries) = true := by
  rw [arePlain_iff]
  intro s mem
  obtain ⟨entry, -, rfl⟩ := List.mem_map.mp mem
  rfl

theorem arePlain_flatMap {β : Type} {body : β → List Statement}
    (h : ∀ part, arePlain (body part) = true) (parts : List β) :
    arePlain (parts.flatMap body) = true := by
  induction parts with
  | nil => rfl
  | cons part rest ih => rw [List.flatMap_cons, arePlain_append, h, ih, Bool.and_self]

theorem arePlain_platformBlocks {α β : Type} (parts : α → List β) {body : β → List Statement}
    (h : ∀ part, arePlain (body part) = true) (entries : List (Platform × α)) :
    arePlain (platformBlocks parts body entries) = true := by
  refine arePlain_flatMap (fun entry => ?_) entries
  split
  · rfl
  · simp [arePlain, isPlain, arePlain_flatMap h]

theorem arePlain_nativeLibrary (name : String) : arePlain (nativeLibrary name) = true := rfl

theorem arePlain_scripts (names : List String) : arePlain (scripts names) = true := by
  rw [arePlain_iff]
  intro s mem
  obtain ⟨name, -, rfl⟩ := List.mem_map.mp mem
  rfl

end Program

end CMakeScript
