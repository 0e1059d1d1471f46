import CMakeScript.Configuration
import CMakeScript.Proofs.Grouping

/-!
# What a run of calls leaves behind

Each field of a configuration takes something from some of the calls and nothing from the others.
So after a run it is determined by what those calls say, in their order: `run_fold`.
-/

namespace CMakeScript

/-- The identifier of the platform to which a scope is narrowed. -/
@[simp] def Scope.platform? : Scope → Option String
  | everywhere => none
  | only platform => some platform

namespace Call

/-- What a call says if it names a known platform. -/
def onKnown {α : Type} (platform : String) (f : Platform → α) : Option α :=
  (Platform.ofId? platform).map f

/-- The problem of a call that names an unknown platform. -/
def unknown? (platform : String) : Option Problem :=
  match Platform.ofId? platform with
  | some _ => none
  | none => some (.unknownPlatform platform)

@[simp] def platform? : Call → Option String
  | report _ => none
  | support platform | exclude platform => some platform
  | setVariable _ _ scope | addScript _ scope | addNative _ scope => scope.platform?

/-- The problem that a call records. -/
@[simp] def problem? : Call → Option Problem
  | report problem => some problem
  | call => call.platform?.bind unknown?

/-! ### What a call says about the other fields -/

@[simp] def supported? : Call → Option Platform
  | support platform => Platform.ofId? platform
  | _ => none

@[simp] def excluded? : Call → Option Platform
  | exclude platform => Platform.ofId? platform
  | _ => none

@[simp] def binding? : Call → Option (String × String)
  | setVariable name value .everywhere => some (name, value)
  | _ => none

@[simp] def platformBinding? : Call → Option (Platform × String × String)
  | setVariable name value (.only platform) => onKnown platform (·, name, value)
  | _ => none

@[simp] def script? : Call → Option String
  | addScript name .everywhere => some name
  | _ => none

@[simp] def platformScript? : Call → Option (Platform × String)
  | addScript name (.only platform) => onKnown platform (·, name)
  | _ => none

@[simp] def native? : Call → Option String
  | addNative name .everywhere => some name
  | _ => none

@[simp] def platformNative? : Call → Option (Platform × String)
  | addNative name (.only platform) => onKnown platform (·, name)
  | _ => none

end Call

namespace Configuration

def setOn : Table Platform (Table String String) → Platform × String × String →
    Table Platform (Table String String) :=
  Table.insertAt {} fun vars e => vars.set e.1 e.2

def addOn : Table Platform (List String) → Platform × String → Table Platform (List String) :=
  Table.insertAt [] fun names name => names ++ [name]

/-- Every field takes from a call what the call says about it. -/
theorem apply_eq (c : Configuration) (call : Call) :
    c.apply call =
      { package := c.package
        problems := c.problems ++ call.problem?.toList
        supported := c.supported ++ call.supported?.toList
        excluded := c.excluded ++ call.excluded?.toList
        bindings := call.binding?.elim c.bindings fun e => c.bindings.set e.1 e.2
        platformBindings := call.platformBinding?.elim c.platformBindings (setOn c.platformBindings)
        scripts := c.scripts ++ call.script?.toList
        platformScripts := call.platformScript?.elim c.platformScripts (addOn c.platformScripts)
        natives := c.natives ++ call.native?.toList
        platformNatives :=
          call.platformNative?.elim c.platformNatives (addOn c.platformNatives) } := by
  cases call with
  | report problem => simp [apply, report]
  | support platform | exclude platform =>
    cases known : Platform.ofId? platform <;>
      simp [apply, onPlatform, report, known, Call.unknown?]
  | setVariable name value scope | addScript name scope | addNative name scope =>
    cases scope with
    | everywhere => simp [apply]
    | only platform =>
      cases known : Platform.ofId? platform <;>
        simp [apply, onPlatform, report, known, setOn, addOn, addName, Table.insertAt,
          Call.onKnown, Call.unknown?]

/-- What the calls of a run say about a field is put into it call by call. -/
theorem run_fold {α τ : Type} (field : Configuration → τ) (part : Call → Option α)
    (insert : τ → α → τ)
    (step : ∀ c call, field (c.apply call) = (part call).elim (field c) (insert (field c)))
    (c : Configuration) (calls : List Call) :
    field (c.run calls) = (calls.filterMap part).foldl insert (field c) := by
  induction calls generalizing c with
  | nil => rfl
  | cons call rest ih =>
    have later := ih (c.apply call)
    rw [step] at later
    rw [run_cons, later, List.filterMap_cons]
    cases part call <;> rfl

theorem run_list {α : Type} (field : Configuration → List α) (part : Call → Option α)
    (step : ∀ c call, field (c.apply call) = field c ++ (part call).toList)
    (c : Configuration) (calls : List Call) :
    field (c.run calls) = field c ++ calls.filterMap part := by
  induction calls generalizing c with
  | nil => exact (List.append_nil _).symm
  | cons call rest ih =>
    have later := ih (c.apply call)
    rw [step] at later
    rw [run_cons, later, List.filterMap_cons]
    cases part call <;> simp

theorem run_package (c : Configuration) (calls : List Call) :
    (c.run calls).package = c.package := by
  induction calls generalizing c with
  | nil => rfl
  | cons call rest ih =>
    have later := ih (c.apply call)
    rw [apply_eq] at later
    rw [run_cons, apply_eq, later]

theorem run_problems (c : Configuration) (calls : List Call) :
    (c.run calls).problems = c.problems ++ calls.filterMap Call.problem? :=
  run_list (·.problems) _ (fun c call => by rw [apply_eq]) c calls

theorem run_supported (c : Configuration) (calls : List Call) :
    (c.run calls).supported = c.supported ++ calls.filterMap Call.supported? :=
  run_list (·.supported) _ (fun c call => by rw [apply_eq]) c calls

theorem run_excluded (c : Configuration) (calls : List Call) :
    (c.run calls).excluded = c.excluded ++ calls.filterMap Call.excluded? :=
  run_list (·.excluded) _ (fun c call => by rw [apply_eq]) c calls

theorem run_bindings (c : Configuration) (calls : List Call) :
    (c.run calls).bindings =
      (calls.filterMap Call.binding?).foldl (fun t e => t.set e.1 e.2) c.bindings :=
  run_fold (·.bindings) _ _ (fun c call => by rw [apply_eq]) c calls

theorem run_platformBindings (c : Configuration) (calls : List Call) :
    (c.run calls).platformBindings =
      (calls.filterMap Call.platformBinding?).foldl setOn c.platformBindings :=
  run_fold (·.platformBindings) _ _ (fun c call => by rw [apply_eq]) c calls

theorem run_scripts (c : Configuration) (calls : List Call) :
    (c.run calls).scripts = c.scripts ++ calls.filterMap Call.script? :=
  run_list (·.scripts) _ (fun c call => by rw [apply_eq]) c calls

theorem run_platformScripts (c : Configuration) (calls : List Call) :
    (c.run calls).platformScripts =
      (calls.filterMap Call.platformScript?).foldl addOn c.platformScripts :=
  run_fold (·.platformScripts) _ _ (fun c call => by rw [apply_eq]) c calls

theorem run_natives (c : Configuration) (calls : List Call) :
    (c.run calls).natives = c.natives ++ calls.filterMap Call.native? :=
  run_list (·.natives) _ (fun c call => by rw [apply_eq]) c calls

theorem run_platformNatives (c : Configuration) (calls : List Call) :
    (c.run calls).platformNatives =
      (calls.filterMap Call.platformNative?).foldl addOn c.platformNatives :=
  run_fold (·.platformNatives) _ _ (fun c call => by rw [apply_eq]) c calls

end Configuration

end CMakeScript
