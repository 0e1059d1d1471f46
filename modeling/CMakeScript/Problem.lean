/-!
# Problems

What can be wrong with a configuration. A problem never stops the generation of a script: the script
reports it and stops the run of CMake.
-/

namespace CMakeScript

/-- The build type of the packages for which scripts are generated. -/
def builtinBuild : String := "builtin"

/-- Something that is to stop the run of CMake. -/
inductive Problem where
  | declared (message : String)
  | unknownPlatform (platform : String)
  | otherBuild (buildType : String)
  deriving DecidableEq, Repr

def Problem.message : Problem → String
  | declared message => message
  | unknownPlatform platform =>
    "unsupported platform '" ++ platform ++ "': no build-tool equivalent defined"
  | otherBuild buildType =>
    "build type '" ++ buildType ++ "' is not supported, only '" ++ builtinBuild ++
      "' builds can be generated"

end CMakeScript
