import CMakeScript.Command.Run
import CMakeScript.Yaml.Document

/-!
# The program

The command line with the file system of the machine. Description files are YAML, of which JSON is a
part.
-/

namespace CMakeScript

/-- The code of the error that a path goes through something that is not a directory. -/
def notDirectoryCode : UInt32 := 20

/-- The file system of the machine, for a program that runs in the given directory. -/
def machine (directory : Path) : FileSystem IO where
  read path := do
    try return .content (← IO.FS.readBinFile path).toList
    catch
      | .noFileOrDirectory .. => return .missing
      | error@(.inappropriateType _ code _) =>
        return if code == notDirectoryCode then .missing else .unreadable (toString error)
      | error => return .unreadable (toString error)
  makeDirectory path := do
    try
      IO.FS.createDirAll (Path.text (Path.resolve directory path))
      return .ok ()
    catch error => return .error (toString error)
  write path content := do
    try
      IO.FS.writeFile path content
      return .ok ()
    catch error => return .error (toString error)

end CMakeScript

/-- Runs the program in the working directory. -/
def main (args : List String) : IO UInt32 := do
  let directory := CMakeScript.Path.resolve [] (← IO.currentDir).toString
  let machine := CMakeScript.machine directory
  let outcome ← CMakeScript.Command.run CMakeScript.Yaml.parse machine directory args
  IO.print outcome.output
  IO.eprint outcome.errors
  return outcome.exit.toUInt32
