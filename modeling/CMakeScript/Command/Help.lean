/-!
# Help
-/

namespace CMakeScript.Command

def version : String := "0.1.0"

def versionText : String := "rockgen v" ++ version ++ "\n"

/-- The text that explains the command line. -/
def helpText : String :=
  "\n".intercalate
    ["",
     "Rockgen - package build description to CMake generator v" ++ version,
     "",
     "USAGE:",
     "  rockgen <command> [options]",
     "",
     "COMMANDS:",
     "  generate <description>    Write a CMakeLists.txt for a description file",
     "  platforms                 List platforms and their CMake variables",
     "",
     "GLOBAL OPTIONS:",
     "  -h, --help                Show help",
     "  -v, --version             Show version",
     "  -V, --verbose             Report configuration errors while generating",
     "  -q, --quiet               Suppress output",
     "",
     "GENERATE OPTIONS:",
     "  -o, --out <file>          Output file (default: CMakeLists.txt next to the",
     "                            description, \"-\" for stdout)",
     "  -n, --name <package>      Package name override",
     "",
     "EXAMPLES:",
     "  rockgen generate rockgen.yaml",
     "  rockgen generate pkg/description.json -o build/CMakeLists.txt",
     "  rockgen generate rockgen.yaml -o - --name mypkg",
     "",
     ""]

end CMakeScript.Command
