import CMakeScript.Data
import CMakeScript.Description

/-!
# Writing descriptions

A description as untyped data. Missing parts are left out.
-/

namespace CMakeScript

namespace Data

/-- A field that is left out if it is missing. -/
def fieldOf {α : Type} (name : String) (write : α → Data) (part : Option α) :
    List (String × Data) :=
  match part with
  | none => []
  | some a => [(name, write a)]

def ofRecord {α : Type} (write : α → Data) (r : Record α) : Data :=
  map (r.entries.map fun entry => (entry.1, write entry.2))

end Data

open Data in
def Value.toData : Value → Data
  | text value => .text value
  | list items => texts items

open Data in
def ScriptModule.toData (m : ScriptModule) : Data :=
  map [("name", .text m.name), ("sources", texts m.sources)]

open Data in
def NativeModule.toData (m : NativeModule) : Data :=
  map ([("name", .text m.name), ("sources", texts m.sources)] ++
    fieldOf "libraries" texts m.libraries ++ fieldOf "libdirs" texts m.libdirs ++
    fieldOf "incdirs" texts m.incdirs ++ fieldOf "defines" texts m.defines)

open Data in
def Install.toData (i : Install) : Data :=
  map (fieldOf "lua" texts i.lua ++ fieldOf "lib" texts i.lib ++ fieldOf "conf" texts i.conf ++
    fieldOf "bin" texts i.bin)

open Data in
def Settings.toFields (s : Settings) : List (String × Data) :=
  fieldOf "variables" (ofRecord Value.toData) s.bindings ++
    fieldOf "scriptModules" (fun ms => .list (ms.map ScriptModule.toData)) s.scriptModules ++
    fieldOf "nativeModules" (fun ms => .list (ms.map NativeModule.toData)) s.nativeModules ++
    fieldOf "install" Install.toData s.install

open Data in
def Description.toData (d : Description) : Data :=
  map ([("package", .text d.package)] ++ fieldOf "buildType" .text d.buildType ++
    fieldOf "supportedPlatforms" texts d.supportedPlatforms ++
    fieldOf "unsupportedPlatforms" texts d.unsupportedPlatforms ++
    fieldOf "errors" texts d.errors ++ fieldOf "copyDirectories" texts d.copyDirectories ++
    fieldOf "platforms" (ofRecord fun s => map s.toFields) d.platforms ++ d.settings.toFields)

end CMakeScript
