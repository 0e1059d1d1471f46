import CMakeScript.Description.Reader
import CMakeScript.FileSystem
import CMakeScript.Text.Utf8

/-!
# Loading descriptions

A description file is a text that some reader of data understands, and its data are read as a
description. Which notation that is, and what is wrong with a text that is not understood, is up to
the reader of data.
-/

namespace CMakeScript

inductive LoadError where
  | missing
  | unreadable (reason : String)
  | malformed (reason : String)
  | invalid (error : ReadError)
  deriving DecidableEq, Repr

namespace LoadError

/-- The text that reports why the description at a path cannot be loaded. -/
def message (path : String) : LoadError → String
  | missing => "Description file not found: " ++ path
  | unreadable reason | malformed reason => "Failed to parse " ++ path ++ ": " ++ reason
  | invalid error => "Invalid description " ++ path ++ ":\n" ++ error.message

end LoadError

/-- The description that a file holds. -/
def Description.load (parse : DataReader) : Reading → Except LoadError Description
  | .missing => .error .missing
  | .unreadable reason => .error (.unreadable reason)
  | .content octets =>
    match parse (Text.Utf8.decode octets) with
    | .error reason => .error (.malformed reason)
    | .ok data => (Description.read data).mapError .invalid

end CMakeScript
