import CMakeScript.Argument
import CMakeScript.Platform
import CMakeScript.Variable

/-!
# Sections of a script

A script consists of sections, and there is one function for each. A section is empty or ends in a
blank line, so sections are put together by concatenation.
-/

namespace CMakeScript

/-- Lines of text followed by a blank line. No lines make no text. -/
def paragraph (lines : List String) : String :=
  if lines.isEmpty then "" else "\n".intercalate lines ++ "\n\n"

def fatalError (message : String) : String :=
  "message(FATAL_ERROR " ++ Argument.quote message ++ ")"

def blockIndent : String := "    "

/-- A text that CMake reads only if the condition holds, with every line of it indented. -/
def conditional (condition body : String) : String :=
  "if (" ++ condition ++ ")\n" ++
    String.ofList (Text.indentLines blockIndent.toList body.toList) ++ "\nendif()\n\n"

def setCommand (name value : String) : String :=
  "set(" ++ name ++ " " ++ value ++ ")"

namespace Section

def preamble (package : String) : String :=
  paragraph
    ["# Generated CMake file begin",
     "cmake_minimum_required(VERSION 3.1)",
     "",
     "project(" ++ package ++ " C CXX)",
     "",
     "find_package(Lua)",
     "",
     "## INSTALL DEFAULTS (Relative to CMAKE_INSTALL_PREFIX)",
     "# Primary paths",
     "set(INSTALL_BIN bin CACHE PATH \"Where to install binaries to.\")",
     "set(INSTALL_LIB lib CACHE PATH \"Where to install libraries to.\")",
     "set(INSTALL_ETC etc CACHE PATH \"Where to store configuration files\")",
     "set(INSTALL_SHARE share CACHE PATH \"Directory for shared data.\")",
     "",
     "set(INSTALL_LMOD " ++ reference "INSTALL_LIB" ++
       "/lua CACHE PATH \"Directory to install Lua modules.\")",
     "set(INSTALL_CMOD " ++ reference "INSTALL_LIB" ++
       "/lua CACHE PATH \"Directory to install Lua binary modules.\")"]

def errors (messages : List String) : String :=
  String.join (messages.map fun message => fatalError message ++ "\n\n")

/-- A guard for each platform that is ruled out. -/
def exclusions (platforms : List Platform) : String :=
  String.join <| platforms.map fun p => conditional p.token <|
    fatalError "Unsupported platform (your platform was explicitly marked as not supported)"

/-- The condition that holds on none of the platforms. -/
def noneOf (platforms : List Platform) : String :=
  " AND ".intercalate (platforms.map fun p => "NOT " ++ p.token)

/-- The guard that lets only the given platforms pass. No platforms make no guard. -/
def restriction (platforms : List Platform) : String :=
  if platforms.isEmpty then ""
  else conditional (noneOf platforms) <|
    fatalError "Unsupported platform (your platform is not in list of supported platforms)"

def setCommands (bindings : List (String × String)) : List String :=
  bindings.map fun entry => setCommand entry.1 entry.2

def bindings (entries : List (String × String)) : String :=
  paragraph (setCommands entries)

/-- A block for each platform in which lines are given for it. -/
def platformBlocks {α : Type} (separator : String) (lines : α → List String)
    (entries : List (Platform × α)) : String :=
  String.join <| entries.map fun entry =>
    if (lines entry.2).isEmpty then ""
    else conditional entry.1.token (separator.intercalate (lines entry.2))

def platformBindings (entries : List (Platform × List (String × String))) : String :=
  platformBlocks "\n" setCommands entries

def installCopy : String :=
  paragraph
    ["install(DIRECTORY " ++ reference Variable.copyDirectories ++ " DESTINATION " ++
       reference "CMAKE_INSTALL_PREFIX" ++ ")",
     "install(FILES " ++ reference Variable.installLua ++ " DESTINATION " ++
       reference "INSTALL_LMOD" ++ ")",
     "install(FILES " ++ reference Variable.installLib ++ " DESTINATION " ++
       reference "INSTALL_LIB" ++ ")",
     "install(FILES " ++ reference Variable.installConf ++ " DESTINATION " ++
       reference "INSTALL_ETC" ++ ")",
     "install(PROGRAMS " ++ reference Variable.installBin ++ " DESTINATION " ++
       reference "INSTALL_BIN" ++ ")"]

def moduleParts (name : String) : List String :=
  (Text.fields '.' name.toList).map String.ofList

/-- The directory of a script module: all parts of its name but the last, below the module
directory. -/
def scriptDirectory (name : String) : String :=
  "/".intercalate (reference "INSTALL_LMOD" :: (moduleParts name).dropLast)

/-- The file name of a script module: the last part of its name. -/
def scriptFile (name : String) : String :=
  (moduleParts name).getLastD "" ++ ".lua"

/-- The rule that installs a script module, `a.b.c` as `a/b/c.lua`. -/
def scriptInstall (name : String) : String :=
  "install(FILES " ++ reference (Variable.sources name) ++ " DESTINATION " ++
    scriptDirectory name ++ " RENAME " ++ scriptFile name ++ ")"

/-- The library of a native module, with its search for libraries, its compile settings and the
rule that installs it. -/
def nativeLibrary (name : String) : String :=
  "\n".intercalate
    ["add_library(" ++ name ++ " " ++ reference (Variable.sources name) ++ ")",
     "",
     "foreach(LIBRARY " ++ reference (Variable.libraries name) ++ ")",
     "    find_library(" ++ reference "LIBRARY" ++ " " ++ reference "LIBRARY" ++ " " ++
       reference (Variable.libdirs name) ++ ")",
     "endforeach(LIBRARY)",
     "",
     "target_include_directories(" ++ name ++ " PRIVATE " ++
       reference (Variable.incdirs name) ++ ")",
     "target_compile_definitions(" ++ name ++ " PRIVATE " ++
       reference (Variable.defines name) ++ ")",
     "target_link_libraries(" ++ name ++ " PRIVATE " ++ reference (Variable.libraries name) ++ ")",
     "install(TARGETS " ++ name ++ " DESTINATION " ++ reference "INSTALL_CMOD" ++ ")"]

/-- The names of a platform that are not handled on every platform anyway. -/
def platformOnly (defaults names : List String) : List String :=
  names.filter fun name => !defaults.contains name

def scripts (names : List String) : String :=
  paragraph (names.map scriptInstall)

def platformScripts (entries : List (Platform × List String)) (defaults : List String) : String :=
  platformBlocks "\n" (fun names => (platformOnly defaults names).map scriptInstall) entries

def natives (names : List String) : String :=
  String.join (names.map fun name => nativeLibrary name ++ "\n\n")

def platformNatives (entries : List (Platform × List String)) (defaults : List String) : String :=
  platformBlocks "\n\n" (fun names => (platformOnly defaults names).map nativeLibrary) entries

end Section

end CMakeScript
