import CMakeScript.Proofs.Gathering
import CMakeScript.Proofs.Run

/-!
# What calls make of a fresh configuration

After any run of calls the configuration is given field by field by the calls: lists by what the
calls say in their order, tables by what they say under each key: `run_fresh`. The errors are given
by their texts.
-/

namespace CMakeScript

/-- Variables with their last values, in the order in which they were first bound. -/
def Table.latest (bindings : List (String × String)) : Table String String :=
  .gather List.getLast? bindings

namespace Call

/-- What is said about the platform with the given identifier, if it is unknown. -/
def unsupported? (platform : String) : Option String :=
  if (Platform.ofId? platform).isNone then
    some ("unsupported platform '" ++ platform ++ "': no build-tool equivalent defined")
  else none

/-- The text that a call adds to the errors. -/
def error? : Call → Option String
  | report (.declared message) => some message
  | report (.unknownPlatform platform) =>
    some ("unsupported platform '" ++ platform ++ "': no build-tool equivalent defined")
  | report (.otherBuild buildType) =>
    some ("build type '" ++ buildType ++
      "' is not supported, only 'builtin' builds can be generated")
  | call => call.platform?.bind unsupported?

theorem map_unknown? (platform : String) :
    (unknown? platform).map Problem.message = unsupported? platform := by
  unfold unknown? unsupported?
  cases Platform.ofId? platform <;> rfl

theorem map_problem? (call : Call) : call.problem?.map Problem.message = call.error? := by
  cases call with
  | report problem =>
    cases problem with
    | declared message | unknownPlatform platform => rfl
    | otherBuild buildType =>
      have ending : "' is not supported, only '" ++ (builtinBuild ++ "' builds can be generated") =
          "' is not supported, only 'builtin' builds can be generated" := by decide +kernel
      show some (_ ++ _ ++ _ ++ builtinBuild ++ _) = some (_ ++ _ ++ _)
      rw [String.append_assoc, String.append_assoc, ending]
  | support platform | exclude platform => exact map_unknown? platform
  | setVariable _ _ scope | addScript _ scope | addNative _ scope =>
    cases scope with
    | everywhere => rfl
    | only platform => exact map_unknown? platform

end Call

attribute [ext] Configuration

namespace Configuration

theorem foldl_setOn (bindings : List (Platform × String × String)) :
    bindings.foldl setOn {} = .gather (fun own => some (.latest own)) bindings := by
  have latest (own : List (String × String)) :
      own.foldl (fun t e => t.set e.1 e.2) {} = Table.latest own := Table.ofList_eq_gather own
  simp only [← latest]
  exact Table.foldl_insertAt_eq_gather _ _ bindings

theorem foldl_addOn (names : List (Platform × String)) :
    names.foldl addOn {} = .gather some names := by
  refine (Table.foldl_insertAt_eq_gather _ _ names).trans ?_
  simp only [foldl_concat]

/-- The configuration after a run of calls. A variable keeps the place of its first binding and
takes the value of its last one, and a platform has the place of the first call that names it; a
call that names an unknown platform leaves its problem and nothing else. -/
theorem run_fresh (package : String) (calls : List Call) :
    ({ package } : Configuration).run calls =
        { package
          problems := calls.filterMap Call.problem?
          supported := calls.filterMap Call.supported?
          excluded := calls.filterMap Call.excluded?
          bindings := .latest (calls.filterMap Call.binding?)
          platformBindings :=
            .gather (fun own => some (.latest own)) (calls.filterMap Call.platformBinding?)
          scripts := calls.filterMap Call.script?
          platformScripts := .gather some (calls.filterMap Call.platformScript?)
          natives := calls.filterMap Call.native?
          platformNatives := .gather some (calls.filterMap Call.platformNative?) } ∧
      (({ package } : Configuration).run calls).errors = calls.filterMap Call.error? := by
  constructor
  · ext1
    · exact run_package _ calls
    · exact run_problems _ calls
    · exact run_supported _ calls
    · exact run_excluded _ calls
    · exact (run_bindings _ calls).trans (Table.ofList_eq_gather _)
    · exact (run_platformBindings _ calls).trans (foldl_setOn _)
    · exact run_scripts _ calls
    · exact (run_platformScripts _ calls).trans (foldl_addOn _)
    · exact run_natives _ calls
    · exact (run_platformNatives _ calls).trans (foldl_addOn _)
  · rw [errors, run_problems, List.nil_append, List.map_filterMap]
    simp only [Call.map_problem?]

example : ({ package := "foo" } : Configuration).run
    [.setVariable "A" "1" (.only "linux"), .setVariable "B" "2" (.only "linux"),
     .addScript "m" (.only "solaris"), .setVariable "A" "3" (.only "linux")] =
    { package := "foo"
      problems := [.unknownPlatform "solaris"]
      platformBindings := ⟨[(.linux, ⟨[("A", "3"), ("B", "2")]⟩)]⟩ } := by
  decide

end Configuration

end CMakeScript
