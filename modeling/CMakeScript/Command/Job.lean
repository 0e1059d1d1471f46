import CMakeScript.Command.Invocation
import CMakeScript.FileSystem
import CMakeScript.Path
import CMakeScript.Script

/-!
# Jobs

A job is to generate the script of one description and to bring it where it belongs.
-/

namespace CMakeScript

/-- Where a script goes. -/
inductive Target where
  /-- To the standard output. -/
  | output
  | file (path : String)
  deriving DecidableEq, Repr

namespace Target

def outputText : String := "-"

def ofText (text : String) : Target := if text = outputText then output else file text

def text : Target → String
  | output => outputText
  | file path => path

end Target

structure Job where
  /-- Where the description comes from. -/
  descriptionPath : String
  description : Description
  target : Target
  /-- Problems are listed while the script is generated. -/
  verbose : Bool
  /-- Nothing is said about success. -/
  quiet : Bool

namespace Job

def scriptName : String := "CMakeLists.txt"

/-- Where the script goes: where the options say, otherwise beside the description. -/
def targetOf (directory : Path) (options : Options) (descriptionPath : String) : Target :=
  match (options.out.filter (!·.isEmpty)).map Target.ofText with
  | some .output => .output
  | some (.file text) => .file (Path.resolve directory text).text
  | none =>
    .file (Path.text ((Path.resolve directory descriptionPath).dropLast ++ [scriptName]))

/-- The job that options ask for. A script on the standard output leaves no room for other words. -/
def ofOptions (directory : Path) (options : Options) (description : Description)
    (descriptionPath : String) : Job where
  descriptionPath
  description := match options.name with
    | some name => if name.isEmpty then description else { description with package := name }
    | none => description
  target := targetOf directory options descriptionPath
  verbose := options.verbose
  quiet := options.quiet || options.out = some Target.outputText

/-- What a job leaves behind besides the file. -/
structure Result where
  generated : Generated
  /-- The script is where it belongs, or there is a reason why not. -/
  delivery : Except String Unit
  output : String := ""
  warnings : String := ""

def warnings (job : Job) (errors : List String) : String :=
  if job.verbose then String.join (errors.map fun error => "Warning: " ++ error ++ "\n") else ""

def success (directory : Path) (path : String) (errors : List String) : String :=
  let shown := Path.relative directory (Path.resolve directory path)
  "✓ Generated " ++ (if shown.isEmpty then path else shown) ++ "\n" ++
    if errors.isEmpty then ""
    else "  " ++ toString errors.length ++ " configuration error(s) will stop the CMake run\n"

/-- Writes a file, after making the directory in which it lies. -/
def deliver {m : Type → Type} [Monad m] (fs : FileSystem m) (path text : String) :
    m (Except String Unit) := do
  match ← fs.makeDirectory (Path.parent path) with
  | .error reason => return .error reason
  | .ok () => fs.write path text

/-- Does a job in the given directory. -/
def run {m : Type → Type} [Monad m] (fs : FileSystem m) (directory : Path) (job : Job) :
    m Result := do
  let generated := job.description.generate
  let warnings := job.warnings generated.errors
  match job.target with
  | .output => return { generated, delivery := .ok (), output := generated.script, warnings }
  | .file path =>
    let delivery ← deliver fs path generated.script
    let output :=
      if delivery.isOk && !job.quiet then success directory path generated.errors else ""
    return { generated, delivery, output, warnings }

def writeFailure (path reason : String) : String := "Failed to write " ++ path ++ ": " ++ reason

end Job

end CMakeScript
