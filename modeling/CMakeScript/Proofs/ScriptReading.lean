import CMakeScript.Proofs.Configured
import CMakeScript.Proofs.ModuleReading
import CMakeScript.Proofs.PreambleReading
import CMakeScript.Proofs.ScriptEnd
import CMakeScript.Proofs.WellNamed

/-!
# The script of a description is read as intended

`parse_script` says that the script of a description with proper names consists of the statements
that the description asks for, whatever the other texts in it are.
-/

namespace CMakeScript

open Statement Lexer

/-! ### The program of a description -/

namespace Description

/-- What the script does before it looks at the package: it stops CMake if something is wrong. -/
def guards (d : Description) : List Statement :=
  Program.errors (d.problems.map Problem.message) ++
    (Program.exclusions d.excluded ++ Program.restriction d.supported)

def modules (d : Description) : List Statement :=
  Program.scripts d.settings.scriptNames ++
    (Program.platformScripts (d.known.map fun entry => (entry.1, entry.2.scriptNames))
      d.settings.scriptNames ++
    (Program.natives d.settings.nativeNames ++
    Program.platformNatives (d.known.map fun entry => (entry.1, entry.2.nativeNames))
      d.settings.nativeNames))

def work (d : Description) : List Statement :=
  Program.assignments d.bound ++
    (Program.platformAssignments (d.known.map fun entry => (entry.1, entry.2.bound)) ++
      (Program.installCopy ++ d.modules))

/-- What the script of a description is to do. -/
def program (d : Description) : List Statement :=
  Program.preamble d.package ++ (d.guards ++ d.work)

end Description

namespace Description

open Program

theorem arePlain_program (d : Description) : arePlain d.program = true := by
  simp only [program, guards, work, modules, arePlain_append, Bool.and_eq_true]
  refine ⟨rfl, ⟨arePlain_errors _, arePlain_exclusions _, arePlain_restriction _⟩,
    arePlain_assignments _, ?_, rfl, arePlain_scripts _, ?_, ?_, ?_⟩
  · exact arePlain_platformBlocks _ (fun _ => rfl) _
  · exact arePlain_platformBlocks _ (fun _ => rfl) _
  · exact arePlain_flatMap arePlain_nativeLibrary _
  · exact arePlain_platformBlocks _ arePlain_nativeLibrary _

namespace WellNamed

variable {d : Description} (named : d.WellNamed)

include named

/-- What holds of all items in settings with proper names holds of those of the platforms. -/
theorem forall_known {β : Type} {P : β → Prop} {items : Settings → List β}
    (h : ∀ s : Settings, s.WellNamed → ∀ item ∈ items s, P item)
    (keep : Platform × Settings → Bool) :
    ∀ entry ∈ (d.known.filter keep).map fun entry => (entry.1, items entry.2),
      ∀ item ∈ entry.2, P item := by
  intro entry mem
  obtain ⟨known, inside, rfl⟩ := List.mem_map.mp mem
  exact h known.2 (named.known known (List.mem_of_mem_filter inside))

theorem reads_overrides : Reads .line
    (Section.platformBindings
      (d.configure.platformBindings.entries.map fun e => (e.1, e.2.entries))).toList
    (directivesOf (platformAssignments
      (d.known.map fun entry => (entry.1, entry.2.bound)))) .line := by
  have dropped (s : Settings) (none : (!s.writes.isEmpty) = false) :
      (id s.bound).isEmpty = true := by
    rw [Bool.not_eq_false', List.isEmpty_iff] at none
    rw [Settings.bound, none]
    rfl
  have read := reads_platformBindings
    (named.forall_known (fun _ h => h.isName_bound) fun entry => !entry.2.writes.isEmpty)
  rw [List.map_map, platformAssignments, platformBlocks_filter _ dropped] at read
  rw [configure_platformBindings]
  exact read

/-- The blocks for names that platforms add are read, if those are read that have names. -/
theorem reads_added (names : Settings → List String) (defaults : List String)
    {text : List (Platform × List String) → String} (body : String → List Statement)
    (read : ∀ entries : List (Platform × List String),
      (∀ entry ∈ entries, ∀ name ∈ entry.2, isName name = true) →
      Reads .line (text entries).toList
        (directivesOf (platformBlocks (Section.platformOnly defaults) body entries)) .line)
    (h : ∀ s : Settings, s.WellNamed → ∀ name ∈ names s, isName name = true) :
    Reads .line
      (text ((d.known.filter fun entry => !(names entry.2).isEmpty).map
        fun entry => (entry.1, names entry.2))).toList
      (directivesOf (platformBlocks (Section.platformOnly defaults) body
        (d.known.map fun entry => (entry.1, names entry.2)))) .line := by
  have dropped (s : Settings) (none : (!(names s).isEmpty) = false) :
      (Section.platformOnly defaults (names s)).isEmpty = true := by
    rw [Bool.not_eq_false', List.isEmpty_iff] at none
    rw [none]
    rfl
  have blocks := read _ (named.forall_known h fun entry => !(names entry.2).isEmpty)
  rw [platformBlocks_filter _ dropped] at blocks
  exact blocks

end WellNamed

theorem generate_errors (d : Description) :
    d.generate.errors = d.problems.map Problem.message := by
  rw [generate, Configuration.errors, configure_problems]

theorem reads_guards (d : Description) :
    Reads .line (Section.errors d.configure.errors ++ (Section.exclusions d.configure.excluded ++
      Section.restriction d.configure.supported)).toList (directivesOf d.guards) .line := by
  have messages : d.configure.errors = d.problems.map Problem.message := generate_errors d
  rw [messages, configure_excluded, configure_supported, guards, directivesOf_append,
    directivesOf_append, String.toList_append, String.toList_append]
  exact (reads_errors _).append ((reads_exclusions _).append (reads_restriction _))

theorem reads_work {d : Description} (named : d.WellNamed) :
    Reads .line (String.join (d.configure.sections.drop 4)).toList (directivesOf d.work) .line := by
  have bound := reads_bindings named.isName_bound
  have overrides := named.reads_overrides
  have scripts := reads_scripts named.settings.isName_scripts
  have platformScripts := named.reads_added Settings.scriptNames
    d.settings.scriptNames (fun name => [scriptInstall name]) (fun _ h => reads_platformScripts h)
    fun _ h => h.isName_scripts
  have natives := reads_natives named.settings.isName_natives
  have platformNatives := named.reads_added Settings.nativeNames
    d.settings.nativeNames nativeLibrary (fun _ h => reads_platformNatives h)
    fun _ h => h.isName_natives
  have sections := bound.append (overrides.append (reads_installCopy.append (scripts.append
    (platformScripts.append (natives.append platformNatives)))))
  rw [← configure_bindings, ← configure_platformScripts, ← configure_platformNatives,
    ← configure_scripts, ← configure_natives] at sections
  have joined : String.join (d.configure.sections.drop 4) =
      Section.bindings d.configure.bindings.entries ++ (Section.platformBindings
        (d.configure.platformBindings.entries.map fun e => (e.1, e.2.entries)) ++
      (Section.installCopy ++ (Section.scripts d.configure.scripts ++
      (Section.platformScripts d.configure.platformScripts.entries d.configure.scripts ++
      (Section.natives d.configure.natives ++
      Section.platformNatives d.configure.platformNatives.entries d.configure.natives))))) := by
    simp [Configuration.sections]
  rw [joined, work, modules]
  simp only [String.toList_append, directivesOf_append]
  rw [← configure_scripts, ← configure_natives]
  exact sections

/-- The script of a description is read as the program of the description. -/
theorem parse_script {d : Description} (named : d.WellNamed) :
    parse d.configure.script = some d.program := by
  have preamble := reads_preamble named.package
  have sections := preamble.append ((reads_guards d).append (reads_work named))
  have joined : (String.join d.configure.sections).toList =
      (Section.preamble d.package).toList ++
        ((Section.errors d.configure.errors ++ (Section.exclusions d.configure.excluded ++
          Section.restriction d.configure.supported)).toList ++
            (String.join (d.configure.sections.drop 4)).toList) := by
    simp [Configuration.sections, configure_package]
  -- The sections have one line end more than the script, and it changes nothing.
  rw [← joined, ← script_append_newline, ← directivesOf_append, ← directivesOf_append] at sections
  have read := read_of_append_newline sections
  rw [String.ofList_toList] at read
  exact parse_of_read d.arePlain_program read

/-- No text of a description that has been read gets out of its place in the script, whether the
package keeps its name or is given another one. The messages in the script are those of the
problems that are recorded. -/
theorem parse_generate_of_read {raw : Data} {d : Description} (accepted : read raw = .ok d)
    {package : String} (name : package = d.package ∨ isName package = true) :
    parse ({ d with package := package } : Description).generate.script =
        some ({ d with package := package } : Description).program ∧
      ({ d with package := package } : Description).generate.errors =
        d.problems.map Problem.message := by
  have named := wellNamed_of_read accepted
  have valid : isName package = true := by
    rcases name with rfl | valid
    · exact named.package
    · exact valid
  exact ⟨parse_script ⟨valid, named.settings, named.overrides⟩, generate_errors _⟩

/-- A description whose texts look like the end of an argument, a command or a block. -/
def hostile : Data :=
  .map [("package", .text "foo"), ("errors", Data.texts ["\")\nendif() # $\x7bX\x7d"]),
    ("supportedPlatforms", Data.texts ["linux", "solaris)"]),
    ("variables", .map [("X", .text "a\\\" b)\n#"), ("Y", Data.texts ["if(", "\n\n", "c;d"])]),
    ("platforms", .map [("msys", .map [("variables", .map [("X", .text "\")\nendif(")])])])]

theorem parse_generate_hostile : ∃ d, read hostile = .ok d ∧ isName "bar" = true ∧
    parse ({ d with package := "bar" } : Description).generate.script =
        some ({ d with package := "bar" } : Description).program ∧
      ({ d with package := "bar" } : Description).generate.errors =
        d.problems.map Problem.message := by
  have name : isName "bar" = true := by decide
  have found : (read hostile).toOption.map (·.package) = some "foo" := by decide +kernel
  obtain ⟨d, accepted, -⟩ := exists_of_read found
  exact ⟨d, accepted, name, parse_generate_of_read accepted (.inr name)⟩

end Description

end CMakeScript
