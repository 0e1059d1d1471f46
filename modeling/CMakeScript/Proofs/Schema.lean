import CMakeScript.Data
import CMakeScript.Description
import CMakeScript.Name
import Mathlib.Data.List.Forall2

/-!
# The schema of descriptions

Which data is a description (`Data.IsDescription`), and what the description holds that such data
says (`Description.Holds`). Neither mentions how data is read.
-/

namespace CMakeScript

/-! ### Shapes of data -/

namespace Data

def IsText (d : Data) : Prop := ∃ value, d = .text value

def IsTexts (d : Data) : Prop := ∃ items, d = texts items

def IsName (d : Data) : Prop := ∃ value, d = .text value ∧ isName value = true

def IsValue (d : Data) : Prop := d.IsText ∨ d = .null ∨ d.IsTexts

/-- The source files of a module, of which a single one may be given as a text. -/
def IsSources (d : Data) : Prop := d.IsText ∨ d.IsTexts

def IsMap (P : List (String × Data) → Prop) (d : Data) : Prop :=
  ∃ entries, d.entries? = some entries ∧ P entries

def IsMapList (P : List (String × Data) → Prop) (d : Data) : Prop :=
  ∃ items, d = .list items ∧ ∀ item ∈ items, item.IsMap P

end Data

section Fields

variable (entries : List (String × Data))

def Only (fields : List String) : Prop := ∀ entry ∈ entries, entry.1 ∈ fields

def Has (field : String) (P : Data → Prop) : Prop := ∃ d, Data.field? entries field = some d ∧ P d

/-- The field has the property if it is there. -/
def May (field : String) (P : Data → Prop) : Prop := ∀ d, Data.field? entries field = some d → P d

structure IsScriptModule : Prop where
  only : Only entries ["name", "sources"]
  name : Has entries "name" Data.IsName
  sources : Has entries "sources" Data.IsSources

structure IsNativeModule : Prop where
  only : Only entries ["name", "sources", "libraries", "libdirs", "incdirs", "defines"]
  name : Has entries "name" Data.IsName
  sources : Has entries "sources" Data.IsSources
  libraries : May entries "libraries" Data.IsTexts
  libdirs : May entries "libdirs" Data.IsTexts
  incdirs : May entries "incdirs" Data.IsTexts
  defines : May entries "defines" Data.IsTexts

structure IsInstall : Prop where
  only : Only entries ["lua", "lib", "conf", "bin"]
  lua : May entries "lua" Data.IsTexts
  lib : May entries "lib" Data.IsTexts
  conf : May entries "conf" Data.IsTexts
  bin : May entries "bin" Data.IsTexts

def AreBindings : Prop := ∀ entry ∈ entries, isName entry.1 = true ∧ entry.2.IsValue

structure AreSettings : Prop where
  bindings : May entries "variables" (Data.IsMap AreBindings)
  scriptModules : May entries "scriptModules" (Data.IsMapList IsScriptModule)
  nativeModules : May entries "nativeModules" (Data.IsMapList IsNativeModule)
  install : May entries "install" (Data.IsMap IsInstall)

/-- The settings of a platform, which have no other fields. -/
def AreOverrides : Prop :=
  Only entries ["variables", "scriptModules", "nativeModules", "install"] ∧ AreSettings entries

structure AreDescription : Prop where
  only : Only entries ["package", "buildType", "supportedPlatforms", "unsupportedPlatforms",
    "errors", "copyDirectories", "platforms", "variables", "scriptModules", "nativeModules",
    "install"]
  package : Has entries "package" Data.IsName
  buildType : May entries "buildType" Data.IsText
  supportedPlatforms : May entries "supportedPlatforms" Data.IsTexts
  unsupportedPlatforms : May entries "unsupportedPlatforms" Data.IsTexts
  errors : May entries "errors" Data.IsTexts
  copyDirectories : May entries "copyDirectories" Data.IsTexts
  platforms : May entries "platforms" <|
    Data.IsMap fun overrides => ∀ entry ∈ overrides, entry.2.IsMap AreOverrides
  settings : AreSettings entries

end Fields

def Data.IsDescription (d : Data) : Prop := d.IsMap AreDescription

/-! ### What data says -/

def HoldsText (value : String) (d : Data) : Prop := d = .text value

def HoldsTexts (items : List String) (d : Data) : Prop := d = Data.texts items

/-- No value stands for the empty text. -/
def Value.Holds : Value → Data → Prop
  | text value, d => d = .text value ∨ d = .null ∧ value = ""
  | list items, d => HoldsTexts items d

def HoldsSources (items : List String) (d : Data) : Prop :=
  (∃ source, d = .text source ∧ items = [source]) ∨ HoldsTexts items d

/-- A record of what the entries of a mapping say, each under its key and in their order. -/
def HoldsMap {α : Type} (R : α → Data → Prop) (r : Record α) (d : Data) : Prop :=
  ∃ entries, d.entries? = some entries ∧
    List.Forall₂ (fun own entry => own.1 = entry.1 ∧ R own.2 entry.2) r.entries entries

def HoldsEntries {α : Type} (R : α → List (String × Data) → Prop) (value : α) (d : Data) : Prop :=
  ∃ entries, d.entries? = some entries ∧ R value entries

/-- What the mappings of a list say, in their order. -/
def HoldsMapList {α : Type} (R : α → List (String × Data) → Prop) (values : List α) (d : Data) :
    Prop :=
  ∃ items, d = .list items ∧ List.Forall₂ (HoldsEntries R) values items

/-- What a field says. The value is missing exactly if the field is. -/
def HoldsField {α : Type} (entries : List (String × Data)) (field : String)
    (R : α → Data → Prop) (value : Option α) : Prop :=
  Option.Rel R value (Data.field? entries field)

structure ScriptModule.Holds (m : ScriptModule) (entries : List (String × Data)) : Prop where
  name : Has entries "name" (HoldsText m.name)
  sources : Has entries "sources" (HoldsSources m.sources)

structure NativeModule.Holds (m : NativeModule) (entries : List (String × Data)) : Prop where
  name : Has entries "name" (HoldsText m.name)
  sources : Has entries "sources" (HoldsSources m.sources)
  libraries : HoldsField entries "libraries" HoldsTexts m.libraries
  libdirs : HoldsField entries "libdirs" HoldsTexts m.libdirs
  incdirs : HoldsField entries "incdirs" HoldsTexts m.incdirs
  defines : HoldsField entries "defines" HoldsTexts m.defines

structure Install.Holds (i : Install) (entries : List (String × Data)) : Prop where
  lua : HoldsField entries "lua" HoldsTexts i.lua
  lib : HoldsField entries "lib" HoldsTexts i.lib
  conf : HoldsField entries "conf" HoldsTexts i.conf
  bin : HoldsField entries "bin" HoldsTexts i.bin

structure Settings.Holds (s : Settings) (entries : List (String × Data)) : Prop where
  bindings : HoldsField entries "variables" (HoldsMap Value.Holds) s.bindings
  scriptModules : HoldsField entries "scriptModules" (HoldsMapList ScriptModule.Holds)
    s.scriptModules
  nativeModules : HoldsField entries "nativeModules" (HoldsMapList NativeModule.Holds)
    s.nativeModules
  install : HoldsField entries "install" (HoldsEntries Install.Holds) s.install

structure Description.HoldsFields (d : Description) (entries : List (String × Data)) : Prop where
  package : Has entries "package" (HoldsText d.package)
  buildType : HoldsField entries "buildType" HoldsText d.buildType
  supportedPlatforms : HoldsField entries "supportedPlatforms" HoldsTexts d.supportedPlatforms
  unsupportedPlatforms :
    HoldsField entries "unsupportedPlatforms" HoldsTexts d.unsupportedPlatforms
  errors : HoldsField entries "errors" HoldsTexts d.errors
  copyDirectories : HoldsField entries "copyDirectories" HoldsTexts d.copyDirectories
  platforms : HoldsField entries "platforms" (HoldsMap (HoldsEntries Settings.Holds)) d.platforms
  settings : d.settings.Holds entries

/-- The description holds exactly what the data says. -/
def Description.Holds : Description → Data → Prop := HoldsEntries HoldsFields

end CMakeScript
