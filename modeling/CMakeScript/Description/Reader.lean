import CMakeScript.Data
import CMakeScript.Description
import CMakeScript.Description.Checked
import CMakeScript.Name

/-!
# Reading descriptions

Untyped data is read as a description. Fields that a description does not have are issues, and so
are parts of a wrong shape; platform identifiers are not looked at here.
-/

namespace CMakeScript

/-- The items of a list with their places. -/
def Place.items {δ : Type} (place : Place) (items : List δ) : List (Place × δ) :=
  items.zipIdx.map fun entry => (place.item entry.2, entry.1)

namespace Reader

/-- An issue for every key that is not among the known fields. -/
def onlyFields (place : Place) (known : List String) (entries : List (String × Data)) :
    Checked Unit :=
  ⟨some (), (entries.filter fun entry => !known.contains entry.1).map fun entry =>
    ⟨place, .unknownField entry.1⟩⟩

def text (place : Place) : Data → Checked String
  | .text value => .good value
  | _ => .bad place .notText

/-- A name that is already known to be a text. -/
def nameText (place : Place) (value : String) : Checked String :=
  if isName value then .good value else .bad place (.invalidName value)

/-- A name, which must not be missing. -/
def name (place : Place) : Option Data → Checked String
  | none => .bad place .nameMissing
  | some d => (text place d).andThen (nameText place)

def textItems (place : Place) (items : List Data) : Checked (List String) :=
  Checked.collect ((place.items items).map fun entry => text entry.1 entry.2)

def textList (place : Place) : Data → Checked (List String)
  | .list items => textItems place items
  | _ => .bad place .notTextList

/-- The value of a variable. No value stands for the empty text. -/
def value (place : Place) : Data → Checked Value
  | .list items => Value.list <$> textItems place items
  | .null => .good (.text "")
  | d => Value.text <$> text place d

def bindings (place : Place) (d : Data) : Checked (Record Value) :=
  match d.entries? with
  | none => .bad place .notVariables
  | some entries => Record.ofList <$> Checked.collect (entries.map fun entry =>
      Prod.mk <$> nameText place entry.1 <*> value (place.key entry.1) entry.2)

/-- The source files of a module. A text stands for a list of one. -/
def sources (place : Place) (field : Option Data) : Checked (List String) :=
  match field with
  | none => .bad place .sourcesMissing
  | some (.text source) => .good [source]
  | some d => textList (place.key "sources") d

def part {α : Type} (read : Place → Data → Checked α) (place : Place)
    (entries : List (String × Data)) (field : String) : Checked (Option α) :=
  Checked.optional (read (place.key field)) (Data.field? entries field)

def scriptModule (place : Place) (entries : List (String × Data)) : Checked ScriptModule :=
  onlyFields place ["name", "sources"] entries *>
    (ScriptModule.mk <$> name (place.key "name") (Data.field? entries "name") <*>
      sources place (Data.field? entries "sources"))

/-- A native module. Its other lists are read only if there are a name and source files. -/
def nativeModule (place : Place) (entries : List (String × Data)) : Checked NativeModule :=
  onlyFields place ["name", "sources", "libraries", "libdirs", "incdirs", "defines"] entries *>
    (Prod.mk <$> name (place.key "name") (Data.field? entries "name") <*>
      sources place (Data.field? entries "sources")).andThen fun base =>
        NativeModule.mk base.1 base.2 <$> part textList place entries "libraries" <*>
          part textList place entries "libdirs" <*> part textList place entries "incdirs" <*>
          part textList place entries "defines"

def modules {α : Type} (read : Place → List (String × Data) → Checked α) (place : Place) :
    Data → Checked (List α)
  | .list items => Checked.collect ((place.items items).map fun entry =>
      match entry.2.entries? with
      | none => .bad entry.1 .notModule
      | some entries => read entry.1 entries)
  | _ => .bad place .notModuleList

def install (place : Place) (d : Data) : Checked Install :=
  match d.entries? with
  | none => .bad place .notMapping
  | some entries =>
    onlyFields place ["lua", "lib", "conf", "bin"] entries *>
      (Install.mk <$> part textList place entries "lua" <*> part textList place entries "lib" <*>
        part textList place entries "conf" <*> part textList place entries "bin")

def settingsFields : List String := ["variables", "scriptModules", "nativeModules", "install"]

/-- Settings. Further fields are not looked at. -/
def settings (place : Place) (entries : List (String × Data)) : Checked Settings :=
  Settings.mk <$> part bindings place entries "variables" <*>
    part (modules scriptModule) place entries "scriptModules" <*>
    part (modules nativeModule) place entries "nativeModules" <*>
    part install place entries "install"

def platforms (place : Place) (d : Data) : Checked (Record Settings) :=
  match d.entries? with
  | none => .bad place .notPlatforms
  | some entries => Record.ofList <$> Checked.collect (entries.map fun entry =>
      match entry.2.entries? with
      | none => .bad (place.key entry.1) .notMapping
      | some fields =>
        onlyFields (place.key entry.1) settingsFields fields *>
          (Prod.mk entry.1 <$> settings (place.key entry.1) fields))

def descriptionFields : List String :=
  ["package", "buildType", "supportedPlatforms", "unsupportedPlatforms", "errors",
   "copyDirectories", "platforms"] ++ settingsFields

def description (entries : List (String × Data)) : Checked Description :=
  onlyFields [] descriptionFields entries *>
    ((fun package buildType supported unsupported errors directories overrides shared =>
        Description.mk package buildType supported unsupported errors directories shared
          overrides) <$>
      name [.key "package"] (Data.field? entries "package") <*>
      part text [] entries "buildType" <*>
      part textList [] entries "supportedPlatforms" <*>
      part textList [] entries "unsupportedPlatforms" <*>
      part textList [] entries "errors" <*>
      part textList [] entries "copyDirectories" <*>
      part platforms [] entries "platforms" <*>
      settings [] entries)

end Reader

/-- Why data is not a description. -/
inductive ReadError where
  | notMapping
  | issues (found : List Issue)
  deriving DecidableEq, Repr

/-- The text that reports why data is not a description: a line for each issue. -/
def ReadError.message : ReadError → String
  | notMapping => "description must be a mapping"
  | issues found => "\n".intercalate (found.map Issue.message)

/-- Reads data as a description. -/
def Description.read (d : Data) : Except ReadError Description :=
  match d.entries? with
  | none => .error .notMapping
  | some entries =>
    let checked := Reader.description entries
    match checked.issues, checked.value? with
    | [], some description => .ok description
    | found, _ => .error (.issues found)

end CMakeScript
