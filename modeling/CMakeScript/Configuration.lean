import CMakeScript.Platform
import CMakeScript.Problem
import CMakeScript.Table

/-!
# Configurations

A configuration collects what a script has to say. It changes only by calls, and a call that names a
platform without a CMake equivalent records a problem and changes nothing else.
-/

namespace CMakeScript

/-- What a script has to say about a package. -/
structure Configuration where
  package : String
  problems : List Problem := []
  supported : List Platform := []
  excluded : List Platform := []
  bindings : Table String String := {}
  platformBindings : Table Platform (Table String String) := {}
  scripts : List String := []
  platformScripts : Table Platform (List String) := {}
  natives : List String := []
  platformNatives : Table Platform (List String) := {}
  deriving DecidableEq, Repr

/-- Where a setting holds: by default, or on the platform with the given identifier. -/
inductive Scope where
  | everywhere
  | only (platform : String)
  deriving DecidableEq, Repr

/-- A single change to a configuration. -/
inductive Call where
  | report (problem : Problem)
  | support (platform : String)
  | exclude (platform : String)
  | setVariable (name value : String) (scope : Scope)
  | addScript (name : String) (scope : Scope)
  | addNative (name : String) (scope : Scope)
  deriving DecidableEq, Repr

namespace Configuration

def report (c : Configuration) (problem : Problem) : Configuration :=
  { c with problems := c.problems ++ [problem] }

/-- What `f` makes of the platform with the given identifier. An unknown one is reported. -/
def onPlatform (c : Configuration) (platform : String) (f : Platform → Configuration) :
    Configuration :=
  match Platform.ofId? platform with
  | some p => f p
  | none => c.report (.unknownPlatform platform)

def addName (t : Table Platform (List String)) (p : Platform) (name : String) :
    Table Platform (List String) :=
  t.update p fun names => names.getD [] ++ [name]

/-- The configuration after a call. -/
def apply (c : Configuration) : Call → Configuration
  | .report problem => c.report problem
  | .support platform => c.onPlatform platform fun p => { c with supported := c.supported ++ [p] }
  | .exclude platform => c.onPlatform platform fun p => { c with excluded := c.excluded ++ [p] }
  | .setVariable name value .everywhere => { c with bindings := c.bindings.set name value }
  | .setVariable name value (.only platform) => c.onPlatform platform fun p =>
    { c with platformBindings :=
        c.platformBindings.update p fun vars => (vars.getD {}).set name value }
  | .addScript name .everywhere => { c with scripts := c.scripts ++ [name] }
  | .addScript name (.only platform) => c.onPlatform platform fun p =>
    { c with platformScripts := addName c.platformScripts p name }
  | .addNative name .everywhere => { c with natives := c.natives ++ [name] }
  | .addNative name (.only platform) => c.onPlatform platform fun p =>
    { c with platformNatives := addName c.platformNatives p name }

def run (c : Configuration) (calls : List Call) : Configuration :=
  calls.foldl apply c

def errors (c : Configuration) : List String :=
  c.problems.map Problem.message

theorem run_cons (c : Configuration) (call : Call) (rest : List Call) :
    c.run (call :: rest) = (c.apply call).run rest :=
  rfl

theorem run_append (c : Configuration) (first second : List Call) :
    c.run (first ++ second) = (c.run first).run second :=
  List.foldl_append

end Configuration

end CMakeScript
