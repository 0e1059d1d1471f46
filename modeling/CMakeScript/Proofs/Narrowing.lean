import CMakeScript.Proofs.Configured

/-!
# Settings on one platform

Settings make the same calls by default and on a platform, but for the scope: `map_within_calls`.
What the calls leave behind is the same too, in the tables of the platform: `run_within`.
-/

namespace CMakeScript

namespace Call

/-- The call in another scope. A call without a scope stays as it is. -/
def within (scope : Scope) : Call → Call
  | setVariable name value _ => .setVariable name value scope
  | addScript name _ => .addScript name scope
  | addNative name _ => .addNative name scope
  | call => call

/-- The call sets a variable or adds a module by default. -/
def IsDefault : Call → Prop
  | setVariable _ _ scope | addScript _ scope | addNative _ scope => scope = .everywhere
  | _ => False

end Call

namespace Table

variable {κ α : Type} [DecidableEq κ] [DecidableEq α]

/-- A table with one entry, or with none if there is nothing in it. -/
def entryUnless (empty : α) (key : κ) (value : α) : Table κ α :=
  if value = empty then {} else ⟨[(key, value)]⟩

theorem update_entryUnless {empty value : α} (key : κ) {f : Option α → α}
    (start : f none = f (some empty)) (filled : f (some value) ≠ empty) :
    (entryUnless empty key value).update key f = entryUnless empty key (f (some value)) := by
  unfold entryUnless
  rw [if_neg filled]
  split
  next nothing =>
    rw [nothing, ← start]
    rfl
  next => simp [update, alter]

end Table

theorem Table.set_ne_empty {κ α : Type} [DecidableEq κ] (t : Table κ α) (key : κ) (value : α) :
    t.set key value ≠ {} := by
  intro empty
  have found : (t.set key value).get? key = some value := by rw [get?_set, if_pos rfl]
  rw [empty] at found
  cases found

namespace Configuration

/-- What holds by default in a configuration, as what holds on one platform only. -/
def narrowed (p : Platform) (c : Configuration) : Configuration :=
  { package := c.package
    platformBindings := .entryUnless {} p c.bindings
    platformScripts := .entryUnless [] p c.scripts
    platformNatives := .entryUnless [] p c.natives }

theorem onPlatform_id (c : Configuration) (p : Platform) (f : Platform → Configuration) :
    c.onPlatform p.id f = f p := by
  rw [onPlatform, Platform.ofId?_id]

theorem setOn_entryUnless (p : Platform) (vars : Table String String) (name value : String) :
    setOn (.entryUnless {} p vars) (p, name, value) = .entryUnless {} p (vars.set name value) :=
  Table.update_entryUnless p rfl (Table.set_ne_empty _ _ _)

theorem addOn_entryUnless (p : Platform) (names : List String) (name : String) :
    addOn (.entryUnless [] p names) (p, name) = .entryUnless [] p (names ++ [name]) :=
  Table.update_entryUnless p rfl (List.append_ne_nil_of_right_ne_nil _ (List.cons_ne_nil _ _))

theorem apply_within {call : Call} (shared : call.IsDefault) (p : Platform) (c : Configuration) :
    (c.narrowed p).apply (call.within (.only p.id)) = (c.apply call).narrowed p := by
  cases call with
  | report problem | support platform | exclude platform => exact shared.elim
  | setVariable name value scope =>
    cases shared
    simp only [Call.within, apply, onPlatform_id, narrowed, ← setOn_entryUnless]
    rfl
  | addScript name scope | addNative name scope =>
    cases shared
    simp only [Call.within, apply, onPlatform_id, narrowed, ← addOn_entryUnless]
    rfl

/-- Calls that are narrowed to a platform leave behind what they leave behind by default, in the
tables of that platform. -/
theorem run_within (p : Platform) {calls : List Call} (shared : ∀ call ∈ calls, call.IsDefault)
    (c : Configuration) :
    (c.narrowed p).run (calls.map (Call.within (.only p.id))) = (c.run calls).narrowed p := by
  induction calls generalizing c with
  | nil => rfl
  | cons call rest ih =>
    obtain ⟨first, later⟩ := List.forall_mem_cons.mp shared
    have step := apply_within first p c
    have run := ih later (c.apply call)
    rw [← step] at run
    exact run

end Configuration

namespace Settings

theorem map_within_setList (name : String) (items : List String) (first second : Scope) :
    (Call.setList name items first).map (Call.within second) = Call.setList name items second := by
  unfold Call.setList
  split <;> rfl

theorem map_within_calls (s : Settings) (first second : Scope) :
    (s.calls first).map (Call.within second) = s.calls second := by
  simp only [calls, Install.calls, ScriptModule.calls, NativeModule.calls, List.map_append,
    List.map_map, List.map_flatMap, map_within_setList]
  rfl

theorem isDefault_of_mem_calls {s : Settings} {call : Call} (mem : call ∈ s.calls .everywhere) :
    call.IsDefault := by
  rcases mem_calls mem with ⟨binding, rfl⟩ | ⟨name, rfl⟩ | ⟨name, rfl⟩ <;> exact rfl

end Settings

namespace Description

variable (package : String) (s : Settings)

theorem calls_shared : ({ package, settings := s } : Description).calls = s.calls .everywhere := by
  have copied : Call.setList Variable.copyDirectories [] .everywhere = [] := rfl
  simp [calls, buildTypeCalls, overrides, copied]

theorem calls_narrowed (p : Platform) :
    ({ package, platforms := some (.ofList [(p.id, s)]) } : Description).calls =
      s.calls (.only p.id) := by
  have overridden : ({ package, platforms := some (.ofList [(p.id, s)]) } : Description).overrides =
      [(p.id, s)] := Record.arrange_of_ordered (List.pairwise_singleton _ _)
  have nothing : ({} : Settings).calls .everywhere = [] := rfl
  have copied : Call.setList Variable.copyDirectories [] .everywhere = [] := rfl
  simp [calls, buildTypeCalls, overridden, copied, nothing]

/-- Settings on one platform leave behind what they leave behind by default, in the tables of that
platform, and no errors. -/
theorem platform_settings_narrow (fresh : String) (p : Platform) :
    let shared := ({ package := fresh } : Configuration).run
      ({ package, settings := s } : Description).calls
    let own := ({ package := fresh } : Configuration).run
      ({ package, platforms := some (.ofList [(p.id, s)]) } : Description).calls
    own = shared.narrowed p ∧ own.errors = [] ∧ shared.errors = [] := by
  intro shared own
  have narrowed : own = shared.narrowed p := by
    have run := Configuration.run_within p (fun _ => Settings.isDefault_of_mem_calls (s := s))
      { package := fresh }
    rw [Settings.map_within_calls] at run
    simp only [own, shared, calls_shared, calls_narrowed]
    -- A fresh configuration is narrowed to itself.
    exact run
  have silent : shared.problems = [] := by
    simp only [shared, calls_shared, Configuration.run_problems, List.nil_append]
    exact List.filterMap_eq_nil_iff.mpr fun _ mem => Settings.problem?_of_mem_calls mem
  refine ⟨narrowed, ?_, ?_⟩
  · rw [narrowed]
    rfl
  · rw [Configuration.errors, silent]
    rfl

end Description

end CMakeScript
