import CMakeScript.Section
import CMakeScript.Wiring

/-!
# Scripts

A script is made of eleven sections in a fixed order. Recorded problems come first, so that CMake
stops at them before it does anything else.
-/

namespace CMakeScript

namespace Configuration

def sections (c : Configuration) : List String :=
  [Section.preamble c.package,
   Section.errors c.errors,
   Section.exclusions c.excluded,
   Section.restriction c.supported,
   Section.bindings c.bindings.entries,
   Section.platformBindings (c.platformBindings.entries.map fun e => (e.1, e.2.entries)),
   Section.installCopy,
   Section.scripts c.scripts,
   Section.platformScripts c.platformScripts.entries c.scripts,
   Section.natives c.natives,
   Section.platformNatives c.platformNatives.entries c.natives]

/-- The script of a configuration: its sections, with a single line end after the last command. -/
def script (c : Configuration) : String :=
  String.ofList (Text.trimEnd (String.join c.sections).toList) ++ "\n"

end Configuration

/-- A script together with the problems that it reports. -/
structure Generated where
  script : String
  errors : List String
  deriving DecidableEq, Repr

def Description.generate (d : Description) : Generated :=
  ⟨d.configure.script, d.configure.errors⟩

end CMakeScript
