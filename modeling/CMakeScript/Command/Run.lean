import CMakeScript.Command.Help
import CMakeScript.Command.Job
import CMakeScript.Description.Load

/-!
# The command line

The program does what its arguments ask for and ends with an exit code: 0 for success, 1 if the
description cannot be loaded, 2 for wrong arguments, 5 if the script cannot be written. The file
system and the reader of the data in description files are given to it.
-/

namespace CMakeScript

/-- How a run of the program ends, and what it has said. -/
structure Outcome where
  exit : Nat
  output : String := ""
  errors : String := ""
  deriving DecidableEq, Repr

/-- How a run ends that has done a job. -/
def Outcome.ofResult (target : Target) (result : Job.Result) : Outcome :=
  match result.delivery with
  | .ok () => { exit := 0, output := result.output, errors := result.warnings }
  | .error reason =>
    let failure := "Error: " ++ Job.writeFailure target.text reason ++ "\n"
    { exit := 5, output := result.output, errors := result.warnings ++ failure }

namespace Command

variable {m : Type → Type} [Monad m]

/-- Generates a script for a description file. -/
def generate (parse : DataReader) (fs : FileSystem m) (directory : Path) (i : Invocation) :
    m Outcome :=
  match i.descriptionFile with
  | none => return {
      exit := 2
      errors := "Error: Description file required\n" ++
        "Usage: rockgen generate <description> [-o <file>]\n" }
  | some path =>
    if i.options.name.all isName then do
      match Description.load parse (← fs.read path) with
      | .error error => return { exit := 1, errors := "Error: " ++ error.message path ++ "\n" }
      | .ok description =>
        let job := Job.ofOptions directory i.options description path
        return .ofResult job.target (← job.run fs directory)
    else return {
      exit := 2
      errors := "Error: Invalid package name '" ++ i.options.name.getD "" ++ "'\n" }

def invoke (parse : DataReader) (fs : FileSystem m) (directory : Path) (i : Invocation) :
    m Outcome :=
  if i.command = "version" then return { exit := 0, output := versionText }
  else if i.command = "help" ∨ i.command = "" then return { exit := 0, output := helpText }
  else if i.command = "platforms" then
    return { exit := 0, output := Platform.tableText ++ "\n" }
  else if i.command = "generate" then generate parse fs directory i
  else return {
    exit := 2
    errors := "Error: Unknown command '" ++ i.command ++ "'\n" ++
      "Run 'rockgen --help' for usage information\n" }

def run (parse : DataReader) (fs : FileSystem m) (directory : Path) (args : List String) :
    m Outcome :=
  invoke parse fs directory (Invocation.ofArgs args)

end Command

end CMakeScript
