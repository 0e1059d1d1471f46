/-!
# Invocations

The arguments of the command line: a command, a description file and options, in any order. An
argument that starts with a hyphen is an option, and unknown options are ignored.
-/

namespace CMakeScript

structure Options where
  verbose : Bool := false
  quiet : Bool := false
  /-- Where the script goes. -/
  out : Option String := none
  /-- The name to use for the package. -/
  name : Option String := none
  deriving DecidableEq, Repr

structure Invocation where
  /-- The command; empty if there is none. -/
  command : String := ""
  descriptionFile : Option String := none
  options : Options := {}
  deriving DecidableEq, Repr

/-- What an option means. -/
inductive Flag where
  | help | version | verbose | quiet | out | name
  deriving DecidableEq, Repr

namespace Flag

def ofText? (text : String) : Option Flag :=
  if text = "-h" ∨ text = "--help" then some help
  else if text = "-v" ∨ text = "--version" then some version
  else if text = "-V" ∨ text = "--verbose" then some verbose
  else if text = "-q" ∨ text = "--quiet" then some quiet
  else if text = "-o" ∨ text = "--out" then some out
  else if text = "-n" ∨ text = "--name" then some name
  else none

end Flag

namespace Invocation

/-- An argument that names a command or a file. -/
def isPositional (arg : String) : Bool :=
  match arg.toList with
  | [] => false
  | c :: _ => c != '-'

/-- The invocation with one more command or file. Only the first two count. -/
def addPositional (i : Invocation) (arg : String) : Invocation :=
  if i.command.isEmpty then { i with command := arg }
  else if i.descriptionFile.isNone then { i with descriptionFile := some arg }
  else i

/-- The invocation after further arguments. An option that takes a value takes the next argument,
whatever it is, and the empty text at the end. -/
def addArgs (i : Invocation) : List String → Invocation
  | [] => i
  | arg :: rest =>
    if isPositional arg then (i.addPositional arg).addArgs rest
    else
      match Flag.ofText? arg with
      | some .help => { command := "help" }
      | some .version => { command := "version" }
      | some .verbose => { i with options.verbose := true }.addArgs rest
      | some .quiet => { i with options.quiet := true }.addArgs rest
      | some .out =>
        match rest with
        | [] => { i with options.out := some "" }
        | value :: rest => { i with options.out := some value }.addArgs rest
      | some .name =>
        match rest with
        | [] => { i with options.name := some "" }
        | value :: rest => { i with options.name := some value }.addArgs rest
      | none => i.addArgs rest

def ofArgs (args : List String) : Invocation := ({} : Invocation).addArgs args

end Invocation

end CMakeScript
