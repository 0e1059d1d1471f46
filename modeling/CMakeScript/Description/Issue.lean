/-!
# Issues

What keeps untyped data from being a description, and where.
-/

namespace CMakeScript

/-- A step from a piece of data into one of its parts. -/
inductive Step where
  | key (name : String)
  /-- Into the item of a list, counted from zero. -/
  | item (index : Nat)
  deriving DecidableEq, Repr

/-- A part of a description, as the steps that lead to it. -/
abbrev Place := List Step

namespace Place

def tailText : Place → String
  | [] => ""
  | .key name :: rest => "." ++ name ++ tailText rest
  | .item index :: rest => "[" ++ toString index ++ "]" ++ tailText rest

def text : Place → String
  | [] => "description"
  | .key name :: rest => name ++ tailText rest
  | .item index :: rest => "[" ++ toString index ++ "]" ++ tailText rest

def key (place : Place) (name : String) : Place := place ++ [.key name]

def item (place : Place) (index : Nat) : Place := place ++ [.item index]

end Place

/-- A way in which a part of a description is not as it should be. -/
inductive Fault where
  | unknownField (name : String)
  | notText
  | notTextList
  | nameMissing
  | invalidName (name : String)
  | notVariables
  | notModuleList
  | notModule
  | sourcesMissing
  | notMapping
  | notPlatforms
  deriving DecidableEq, Repr

def Fault.message : Fault → String
  | unknownField name => "unknown field '" ++ name ++ "'"
  | notText => "expected a string"
  | notTextList => "expected a list of strings"
  | nameMissing => "a name is required"
  | invalidName name => "invalid name '" ++ name ++ "'"
  | notVariables => "expected a mapping of variable names to values"
  | notModuleList => "expected a list of modules"
  | notModule => "expected a module declaration"
  | sourcesMissing => "'sources' is required"
  | notMapping => "expected a mapping"
  | notPlatforms => "expected a mapping of platform overrides"

structure Issue where
  place : Place
  fault : Fault
  deriving DecidableEq, Repr

def Issue.message (i : Issue) : String :=
  i.place.text ++ ": " ++ i.fault.message

end CMakeScript
