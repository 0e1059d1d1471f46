import CMakeScript.Record

/-!
# Package descriptions

What an author says about a package. Every optional part keeps apart that it is missing and that it
is empty.
-/

namespace CMakeScript

/-- The value of a variable: a text is one argument, a list is a list of arguments. -/
inductive Value where
  | text (text : String)
  | list (items : List String)
  deriving DecidableEq, Repr

/-- A module that is installed as its source file. -/
structure ScriptModule where
  name : String
  sources : List String
  deriving DecidableEq, Repr

/-- A module that is compiled to a library. -/
structure NativeModule where
  name : String
  sources : List String
  libraries : Option (List String) := none
  libdirs : Option (List String) := none
  incdirs : Option (List String) := none
  defines : Option (List String) := none
  deriving DecidableEq, Repr

/-- Further files to install. -/
structure Install where
  lua : Option (List String) := none
  lib : Option (List String) := none
  conf : Option (List String) := none
  bin : Option (List String) := none
  deriving DecidableEq, Repr

/-- The part of a description that a platform can override. -/
structure Settings where
  bindings : Option (Record Value) := none
  scriptModules : Option (List ScriptModule) := none
  nativeModules : Option (List NativeModule) := none
  install : Option Install := none

/-- A package description. -/
structure Description where
  package : String
  buildType : Option String := none
  supportedPlatforms : Option (List String) := none
  unsupportedPlatforms : Option (List String) := none
  errors : Option (List String) := none
  copyDirectories : Option (List String) := none
  settings : Settings := {}
  platforms : Option (Record Settings) := none

end CMakeScript
