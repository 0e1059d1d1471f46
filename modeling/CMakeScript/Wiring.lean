import CMakeScript.Argument
import CMakeScript.Configuration
import CMakeScript.Description
import CMakeScript.Variable

/-!
# From descriptions to configurations

A description is carried into a configuration by a fixed sequence of calls. The script refers to a
module's files through variables named after the module, and the calls set these variables.
-/

namespace CMakeScript

/-- A value as the text that is written for it. -/
def Value.render : Value → String
  | text value => Argument.render value
  | list items => Argument.renderList items

/-- The call that binds a variable to a list of arguments. An empty or missing list makes none. -/
def Call.setList (name : String) (items : List String) (scope : Scope) : List Call :=
  if items.isEmpty then [] else [.setVariable name (Argument.renderList items) scope]

def ScriptModule.calls (m : ScriptModule) (scope : Scope) : List Call :=
  Call.setList (Variable.sources m.name) m.sources scope ++ [.addScript m.name scope]

/-- The variables of a native module with the lists they are bound to. -/
def NativeModule.lists (m : NativeModule) : List (String × List String) :=
  [(Variable.sources m.name, m.sources),
   (Variable.libraries m.name, m.libraries.getD []),
   (Variable.libdirs m.name, m.libdirs.getD []),
   (Variable.incdirs m.name, m.incdirs.getD []),
   (Variable.defines m.name, m.defines.getD [])]

def NativeModule.calls (m : NativeModule) (scope : Scope) : List Call :=
  m.lists.flatMap (fun entry => Call.setList entry.1 entry.2 scope) ++ [.addNative m.name scope]

/-- The variables of the install lists with the lists they are bound to. -/
def Install.lists (i : Install) : List (String × List String) :=
  [(Variable.installLua, i.lua.getD []),
   (Variable.installLib, i.lib.getD []),
   (Variable.installConf, i.conf.getD []),
   (Variable.installBin, i.bin.getD [])]

def Install.calls (i : Install) (scope : Scope) : List Call :=
  i.lists.flatMap fun entry => Call.setList entry.1 entry.2 scope

namespace Settings

/-- The variables in order; none if they are missing. -/
def variableList (s : Settings) : List (String × Value) :=
  (s.bindings.map (·.entries)).getD []

/-- The calls for settings: the variables, the install lists, the script modules, the native ones.
-/
def calls (s : Settings) (scope : Scope) : List Call :=
  s.variableList.map (fun entry => .setVariable entry.1 entry.2.render scope) ++
    (s.install.getD {}).calls scope ++
    (s.scriptModules.getD []).flatMap (·.calls scope) ++
    (s.nativeModules.getD []).flatMap (·.calls scope)

end Settings

namespace Description

/-- The report on the build type, unless it is missing or the one that is supported. -/
def buildTypeCalls (d : Description) : List Call :=
  match d.buildType with
  | some buildType => if buildType = builtinBuild then [] else [.report (.otherBuild buildType)]
  | none => []

def overrides (d : Description) : List (String × Settings) :=
  (d.platforms.map (·.entries)).getD []

/-- The calls that carry a description into a configuration. -/
def calls (d : Description) : List Call :=
  d.buildTypeCalls ++
    (d.errors.getD []).map (fun message => .report (.declared message)) ++
    (d.supportedPlatforms.getD []).map .support ++
    (d.unsupportedPlatforms.getD []).map .exclude ++
    d.settings.calls .everywhere ++
    Call.setList Variable.copyDirectories (d.copyDirectories.getD []) .everywhere ++
    d.overrides.flatMap fun entry => entry.2.calls (.only entry.1)

def configure (d : Description) : Configuration :=
  Configuration.run { package := d.package } d.calls

end Description

end CMakeScript
