import CMakeScript.Proofs.Program
import CMakeScript.Proofs.Run
import CMakeScript.Wiring
import Mathlib.Data.List.Nodup

/-!
# The configuration of a description

Each field of the configuration of a description, said from the description alone. The settings of a
description bind variables to lists of values: `Settings.writes`.
-/

namespace CMakeScript

/-- The arguments that a value stands for. -/
def Value.items : Value → List String
  | text value => [value]
  | list items => items

theorem Value.render_eq (v : Value) : v.render = Argument.renderList v.items := by
  cases v with
  | text value => exact (Argument.renderList_singleton value).symm
  | list items => rfl

/-- A binding to a list, unless the list is empty. -/
def listWrite (name : String) (items : List String) : List (String × List String) :=
  if items.isEmpty then [] else [(name, items)]

def Call.write (scope : Scope) (binding : String × List String) : Call :=
  .setVariable binding.1 (Argument.renderList binding.2) scope

theorem Call.setList_eq (name : String) (items : List String) (scope : Scope) :
    Call.setList name items scope = (listWrite name items).map (Call.write scope) := by
  unfold Call.setList listWrite
  split <;> rfl

namespace Settings

/-- The bindings that settings make, in order. -/
def writes (s : Settings) : List (String × List String) :=
  s.variableList.map (fun entry => (entry.1, entry.2.items)) ++
    (s.install.getD {}).lists.flatMap (fun entry => listWrite entry.1 entry.2) ++
    (s.scriptModules.getD []).flatMap (fun m => listWrite (Variable.sources m.name) m.sources) ++
    (s.nativeModules.getD []).flatMap fun m =>
      m.lists.flatMap fun entry => listWrite entry.1 entry.2

/-- The variables that settings bind, each with its last value. -/
def bound (s : Settings) : List (String × List String) := (Table.ofList s.writes).entries

def scriptNames (s : Settings) : List String := (s.scriptModules.getD []).map (·.name)

def nativeNames (s : Settings) : List String := (s.nativeModules.getD []).map (·.name)

theorem mem_setList {name : String} {items : List String} {scope : Scope} {call : Call}
    (mem : call ∈ Call.setList name items scope) : ∃ binding, call = Call.write scope binding := by
  rw [Call.setList_eq] at mem
  obtain ⟨binding, -, rfl⟩ := List.mem_map.mp mem
  exact ⟨binding, rfl⟩

/-- Settings bind variables and add modules, all of it in one scope. -/
theorem mem_calls {s : Settings} {scope : Scope} {call : Call} (mem : call ∈ s.calls scope) :
    (∃ binding, call = Call.write scope binding) ∨ (∃ name, call = .addScript name scope) ∨
      ∃ name, call = .addNative name scope := by
  simp only [calls, Install.calls, ScriptModule.calls, NativeModule.calls, List.mem_append,
    List.mem_map, List.mem_flatMap, List.mem_singleton] at mem
  rcases mem with ((⟨entry, -, rfl⟩ | ⟨entry, -, set⟩) | ⟨m, -, set | rfl⟩) |
    ⟨m, -, ⟨entry, -, set⟩ | rfl⟩
  · exact .inl ⟨(entry.1, entry.2.items), by rw [Call.write, Value.render_eq]⟩
  · exact .inl (mem_setList set)
  · exact .inl (mem_setList set)
  · exact .inr (.inl ⟨m.name, rfl⟩)
  · exact .inl (mem_setList set)
  · exact .inr (.inr ⟨m.name, rfl⟩)

theorem problem?_of_mem_calls {s : Settings} {scope : Scope} {call : Call}
    (mem : call ∈ s.calls scope) : call.problem? = scope.platform?.bind Call.unknown? := by
  rcases mem_calls mem with ⟨binding, rfl⟩ | ⟨name, rfl⟩ | ⟨name, rfl⟩ <;> rfl

variable {α : Type} (f : Call → Option α) {scope : Scope}

theorem filterMap_lists (lists : List (String × List String)) :
    (lists.flatMap fun entry => Call.setList entry.1 entry.2 scope).filterMap f =
      (lists.flatMap fun entry => listWrite entry.1 entry.2).filterMap (f ∘ Call.write scope) := by
  simp only [Call.setList_eq, List.filterMap_flatMap, List.filterMap_map]

/-- What is said by the calls that set variables. -/
theorem filterMap_calls_write (hs : ∀ name, f (.addScript name scope) = none)
    (hn : ∀ name, f (.addNative name scope) = none) (s : Settings) :
    (s.calls scope).filterMap f = s.writes.filterMap (f ∘ Call.write scope) := by
  have bound : (s.variableList.map fun entry =>
      Call.setVariable entry.1 entry.2.render scope) =
      (s.variableList.map fun entry => (entry.1, entry.2.items)).map (Call.write scope) := by
    simp [Call.write, Value.render_eq]
  have scripts (m : ScriptModule) : (m.calls scope).filterMap f =
      (listWrite (Variable.sources m.name) m.sources).filterMap (f ∘ Call.write scope) := by
    simp [ScriptModule.calls, Call.setList_eq, hs]
  have natives (m : NativeModule) : (m.calls scope).filterMap f =
      (m.lists.flatMap fun entry => listWrite entry.1 entry.2).filterMap
        (f ∘ Call.write scope) := by
    rw [NativeModule.calls, List.filterMap_append, filterMap_lists]
    simp [hn]
  -- The calls and the bindings have the same four parts in the same order.
  unfold calls writes Install.calls
  rw [bound]
  simp only [List.filterMap_append, List.filterMap_map, filterMap_lists]
  simp only [List.filterMap_flatMap, scripts, natives]

theorem filterMap_writes (hw : ∀ name value, f (.setVariable name value scope) = none)
    (bindings : List (String × List String)) :
    bindings.filterMap (f ∘ Call.write scope) = [] := by
  rw [List.filterMap_eq_nil_iff]
  exact fun binding _ => hw _ _

theorem filterMap_calls_module (hw : ∀ name value, f (.setVariable name value scope) = none)
    (s : Settings) :
    (s.calls scope).filterMap f =
      (s.scriptNames.filterMap fun name => f (.addScript name scope)) ++
        s.nativeNames.filterMap fun name => f (.addNative name scope) := by
  have bound : (s.variableList.map fun entry =>
      Call.setVariable entry.1 entry.2.render scope).filterMap f = [] := by
    rw [List.filterMap_eq_nil_iff]
    intro call mem
    obtain ⟨entry, -, rfl⟩ := List.mem_map.mp mem
    exact hw _ _
  have scripts (m : ScriptModule) :
      (m.calls scope).filterMap f = (f (.addScript m.name scope)).toList := by
    rw [ScriptModule.calls, Call.setList_eq, List.filterMap_append, List.filterMap_map,
      filterMap_writes f hw]
    cases h : f (.addScript m.name scope) <;> simp [h]
  have natives (m : NativeModule) :
      (m.calls scope).filterMap f = (f (.addNative m.name scope)).toList := by
    rw [NativeModule.calls, List.filterMap_append, filterMap_lists, filterMap_writes f hw]
    cases h : f (.addNative m.name scope) <;> simp [h]
  unfold calls scriptNames nativeNames Install.calls
  simp only [List.filterMap_append, bound, filterMap_lists, filterMap_writes f hw]
  simp only [List.filterMap_flatMap, scripts, natives, List.filterMap_map, List.nil_append,
    ← List.filterMap_eq_flatMap_toList, Function.comp_def]

theorem filterMap_calls_nil (hw : ∀ name value, f (.setVariable name value scope) = none)
    (hs : ∀ name, f (.addScript name scope) = none)
    (hn : ∀ name, f (.addNative name scope) = none) (s : Settings) :
    (s.calls scope).filterMap f = [] := by
  rw [filterMap_calls_write f hs hn, filterMap_writes f hw]

end Settings

namespace Description

/-- The problems that a description is reported for on its own. -/
def reports (d : Description) : List Problem :=
  (match d.buildType with
    | some buildType => if buildType = builtinBuild then [] else [.otherBuild buildType]
    | none => []) ++
    (d.errors.getD []).map .declared

/-- The platforms to which the package is restricted, as far as they are known. -/
def supported (d : Description) : List Platform :=
  (d.supportedPlatforms.getD []).filterMap Platform.ofId?

def excluded (d : Description) : List Platform :=
  (d.unsupportedPlatforms.getD []).filterMap Platform.ofId?

/-- The known platforms with settings of their own. -/
def known (d : Description) : List (Platform × Settings) :=
  d.overrides.filterMap fun entry => (Platform.ofId? entry.1).map (·, entry.2)

/-- The bindings made on every platform, in order. -/
def writes (d : Description) : List (String × List String) :=
  d.settings.writes ++ listWrite Variable.copyDirectories (d.copyDirectories.getD [])

/-- The variables bound on every platform, each with its last value. -/
def bound (d : Description) : List (String × List String) := (Table.ofList d.writes).entries

/-- The problems of a description, in order: it is reported for them on its own, or it names a
platform that is unknown. -/
def problems (d : Description) : List Problem :=
  d.reports ++ (d.supportedPlatforms.getD []).filterMap Call.unknown? ++
    (d.unsupportedPlatforms.getD []).filterMap Call.unknown? ++
    d.overrides.flatMap fun entry =>
      (entry.2.calls (.only entry.1)).filterMap fun _ => Call.unknown? entry.1

theorem map_report_reports (d : Description) :
    d.reports.map .report =
      d.buildTypeCalls ++ (d.errors.getD []).map fun message => .report (.declared message) := by
  unfold buildTypeCalls reports
  cases d.buildType with
  | none => simp
  | some buildType => by_cases h : buildType = builtinBuild <;> simp [h]

theorem filterMap_calls {α : Type} (f : Call → Option α) (d : Description) :
    d.calls.filterMap f =
      d.reports.filterMap (fun problem => f (.report problem)) ++
        (d.supportedPlatforms.getD []).filterMap (fun platform => f (.support platform)) ++
        (d.unsupportedPlatforms.getD []).filterMap (fun platform => f (.exclude platform)) ++
        (d.settings.calls .everywhere).filterMap f ++
        (listWrite Variable.copyDirectories (d.copyDirectories.getD [])).filterMap
          (f ∘ Call.write .everywhere) ++
        d.overrides.flatMap fun entry => (entry.2.calls (.only entry.1)).filterMap f := by
  unfold calls
  rw [← map_report_reports]
  simp only [List.filterMap_append, List.filterMap_map, Call.setList_eq, List.filterMap_flatMap,
    Function.comp_def]

/-- What settings say on the platforms that are known. -/
theorem flatMap_overrides {α : Type} (d : Description) (items : Settings → List α) :
    (d.overrides.flatMap fun entry =>
      (items entry.2).filterMap fun item => Call.onKnown entry.1 (·, item)) =
      (d.known.map fun entry => (entry.1, items entry.2)).flatMap fun g => g.2.map (g.1, ·) := by
  unfold known
  generalize d.overrides = overrides
  induction overrides with
  | nil => rfl
  | cons entry rest ih =>
    rw [List.flatMap_cons, ih]
    cases h : Platform.ofId? entry.1 <;> simp [Call.onKnown, h]

theorem known_nodup (d : Description) : (d.known.map (·.1)).Nodup := by
  have ordered : Record.Ordered d.overrides := by
    unfold overrides
    cases d.platforms with
    | none => exact List.Pairwise.nil
    | some r => exact r.ordered
  have distinct : (d.overrides.map (·.1)).Nodup := ordered.imp Record.Precedes.ne
  have keys : d.known.map (·.1) = (d.overrides.map (·.1)).filterMap Platform.ofId? := by
    unfold known
    rw [List.map_filterMap, List.filterMap_map]
    congr 1
    funext entry
    cases h : Platform.ofId? entry.1 <;> simp [h]
  rw [keys]
  refine List.Nodup.filterMap (fun a b p ha hb => ?_) distinct
  rw [← Platform.ofId?_eq_some_iff.mp ha, Platform.ofId?_eq_some_iff.mp hb]

/-- Insertions of what settings say give one entry for each known platform of which they say
anything. -/
theorem foldl_overrides {α β : Type} (d : Description) (base : α) (insert : α → β → α)
    (items : Settings → List β) :
    ((d.overrides.flatMap fun entry =>
      (items entry.2).filterMap fun item => Call.onKnown entry.1 (·, item)).foldl
        (Table.insertAt base insert) {}).entries =
      (d.known.filter fun entry => !(items entry.2).isEmpty).map fun entry =>
        (entry.1, (items entry.2).foldl insert base) := by
  have distinct : ((d.known.map fun entry => (entry.1, items entry.2)).map (·.1)).Nodup := by
    rw [List.map_map]
    exact known_nodup d
  have absent : ∀ group ∈ d.known.map fun entry => (entry.1, items entry.2),
      group.1 ∉ ([] : List (Platform × α)).map (·.1) := fun _ _ => List.not_mem_nil
  have filled := Table.foldl_insertAt_groups base insert distinct absent
  rw [flatMap_overrides]
  rw [show ({} : Table Platform α) = ⟨[]⟩ from rfl, filled, List.flatMap_map, List.nil_append]
  exact Table.flatMap_group base insert _ _ _

/-! ### Platforms that are unknown -/

/-- A platform is named where the generation of the script comes across it: in a list of platforms,
or with settings that say something. -/
def Names (d : Description) (id : String) : Prop :=
  id ∈ d.supportedPlatforms.getD [] ∨ id ∈ d.unsupportedPlatforms.getD [] ∨
    ∃ s, (id, s) ∈ d.overrides ∧ s.calls (.only id) ≠ []

theorem mem_unknown {ids : List String} {problem : Problem} :
    problem ∈ ids.filterMap Call.unknown? ↔
      ∃ id ∈ ids, Platform.ofId? id = none ∧ problem = .unknownPlatform id := by
  rw [List.mem_filterMap]
  refine exists_congr fun id => and_congr_right fun _ => ?_
  unfold Call.unknown?
  cases Platform.ofId? id <;> simp [eq_comm]

theorem mem_problems {d : Description} {problem : Problem} :
    problem ∈ d.problems ↔ problem ∈ d.reports ∨
      ∃ id, d.Names id ∧ Platform.ofId? id = none ∧ problem = .unknownPlatform id := by
  have overridden : (problem ∈ d.overrides.flatMap fun entry =>
      (entry.2.calls (.only entry.1)).filterMap fun _ => Call.unknown? entry.1) ↔
      ∃ id, (∃ s, (id, s) ∈ d.overrides ∧ s.calls (.only id) ≠ []) ∧
        Platform.ofId? id = none ∧ problem = .unknownPlatform id := by
    rw [List.mem_flatMap]
    constructor
    · rintro ⟨⟨id, s⟩, mem, inside⟩
      obtain ⟨call, called, unknown⟩ := List.mem_filterMap.mp inside
      obtain ⟨other, single, absent, rfl⟩ :=
        mem_unknown.mp (List.mem_filterMap.mpr ⟨id, List.mem_singleton_self id, unknown⟩)
      rw [List.mem_singleton.mp single] at absent ⊢
      exact ⟨id, ⟨s, mem, List.ne_nil_of_mem called⟩, absent, rfl⟩
    · rintro ⟨id, ⟨s, mem, ne⟩, absent, rfl⟩
      obtain ⟨call, called⟩ := List.exists_mem_of_ne_nil _ ne
      exact ⟨(id, s), mem, List.mem_filterMap.mpr ⟨call, called, by rw [Call.unknown?, absent]⟩⟩
  rw [problems, List.mem_append, List.mem_append, List.mem_append, mem_unknown, mem_unknown,
    overridden, or_assoc, or_assoc]
  refine or_congr_right ?_
  rw [← or_assoc]
  simp only [Names, or_and_right, exists_or, or_assoc]

/-! ### Each field of the configuration -/

theorem configure_package (d : Description) : d.configure.package = d.package :=
  Configuration.run_package _ _

theorem configure_problems (d : Description) : d.configure.problems = d.problems := by
  have bound (bindings : List (String × List String)) :
      bindings.filterMap (Call.problem? ∘ Call.write .everywhere) = [] :=
    Settings.filterMap_writes _ (fun _ _ => rfl) bindings
  have shared : (d.settings.calls .everywhere).filterMap Call.problem? = [] := by
    rw [Settings.filterMap_calls_write _ (fun _ => rfl) (fun _ => rfl), bound]
  have overridden (entry : String × Settings) :
      (entry.2.calls (.only entry.1)).filterMap Call.problem? =
        (entry.2.calls (.only entry.1)).filterMap fun _ => Call.unknown? entry.1 :=
    List.filterMap_congr fun _ mem => Settings.problem?_of_mem_calls mem
  have run := Configuration.run_problems { package := d.package } d.calls
  rw [filterMap_calls, shared, bound, List.append_nil, List.append_nil] at run
  rw [configure, run, problems]
  simp only [overridden]
  simp [Call.problem?, Call.platform?]

theorem filterMap_calls_listed {α : Type} (f : Call → Option α)
    (hw : ∀ name value scope, f (.setVariable name value scope) = none)
    (hs : ∀ name scope, f (.addScript name scope) = none)
    (hn : ∀ name scope, f (.addNative name scope) = none) (d : Description) :
    d.calls.filterMap f = d.reports.filterMap (fun problem => f (.report problem)) ++
      (d.supportedPlatforms.getD []).filterMap (fun platform => f (.support platform)) ++
      (d.unsupportedPlatforms.getD []).filterMap fun platform => f (.exclude platform) := by
  have set (scope : Scope) (s : Settings) : (s.calls scope).filterMap f = [] :=
    Settings.filterMap_calls_nil f (hw · · scope) (hs · scope) (hn · scope) s
  rw [filterMap_calls, set, Settings.filterMap_writes f (hw · · .everywhere)]
  simp [set]

section Settings

variable {α : Type} (f : Call → Option α) (hr : ∀ problem, f (.report problem) = none)
  (hs : ∀ platform, f (.support platform) = none) (he : ∀ platform, f (.exclude platform) = none)

include hr hs he

theorem filterMap_calls_shared
    (nothing : ∀ (s : Settings) platform, (s.calls (.only platform)).filterMap f = [])
    (d : Description) :
    d.calls.filterMap f = (d.settings.calls .everywhere).filterMap f ++
      (listWrite Variable.copyDirectories (d.copyDirectories.getD [])).filterMap
        (f ∘ Call.write .everywhere) := by
  rw [filterMap_calls]
  simp [hr, hs, he, nothing]

theorem filterMap_calls_overrides
    (hw : ∀ name value, f (.setVariable name value .everywhere) = none)
    (ha : ∀ name, f (.addScript name .everywhere) = none)
    (hn : ∀ name, f (.addNative name .everywhere) = none) (d : Description) :
    d.calls.filterMap f =
      d.overrides.flatMap fun entry => (entry.2.calls (.only entry.1)).filterMap f := by
  rw [filterMap_calls, Settings.filterMap_calls_nil f hw ha hn, Settings.filterMap_writes f hw]
  simp [hr, hs, he]

end Settings

theorem configure_supported (d : Description) : d.configure.supported = d.supported := by
  rw [configure, Configuration.run_supported, filterMap_calls_listed _ (fun _ _ _ => rfl)
    (fun _ _ => rfl) (fun _ _ => rfl)]
  simp [Call.supported?, supported]

theorem configure_excluded (d : Description) : d.configure.excluded = d.excluded := by
  rw [configure, Configuration.run_excluded, filterMap_calls_listed _ (fun _ _ _ => rfl)
    (fun _ _ => rfl) (fun _ _ => rfl)]
  simp [Call.excluded?, excluded]

theorem entries_written (pairs : List (String × List String)) :
    (Table.ofList (written pairs)).entries = written (Table.ofList pairs).entries :=
  Table.entries_ofList_map Argument.renderList pairs

theorem configure_bindings (d : Description) :
    d.configure.bindings.entries = written d.bound := by
  have nothing (s : Settings) (platform : String) :
      (s.calls (.only platform)).filterMap Call.binding? = [] :=
    Settings.filterMap_calls_nil _ (fun _ _ => rfl) (fun _ => rfl) (fun _ => rfl) s
  have told : d.calls.filterMap Call.binding? = written d.writes := by
    rw [filterMap_calls_shared _ (fun _ => rfl) (fun _ => rfl) (fun _ => rfl) nothing,
      Settings.filterMap_calls_write _ (fun _ => rfl) (fun _ => rfl), ← List.filterMap_append]
    exact congrFun List.filterMap_eq_map d.writes
  rw [configure, Configuration.run_bindings, told]
  exact entries_written d.writes

theorem configure_platformBindings (d : Description) :
    (d.configure.platformBindings.entries.map fun entry => (entry.1, entry.2.entries)) =
      (d.known.filter fun entry => !entry.2.writes.isEmpty).map fun entry =>
        (entry.1, written entry.2.bound) := by
  have overridden (entry : String × Settings) :
      (entry.2.calls (.only entry.1)).filterMap Call.platformBinding? =
        (written entry.2.writes).filterMap fun item => Call.onKnown entry.1 (·, item) := by
    rw [Settings.filterMap_calls_write _ (fun _ => rfl) (fun _ => rfl), written,
      List.filterMap_map]
    rfl
  have filled := foldl_overrides d ({} : Table String String) (fun t e => t.set e.1 e.2)
    fun s => written s.writes
  rw [configure, Configuration.run_platformBindings, filterMap_calls_overrides _ (fun _ => rfl)
    (fun _ => rfl) (fun _ => rfl) (fun _ _ => rfl) (fun _ => rfl) (fun _ => rfl)]
  simp only [overridden]
  rw [show Configuration.setOn = Table.insertAt {} (fun t e => t.set e.1 e.2) from rfl, filled,
    List.map_map]
  simp only [Function.comp_def, written_isEmpty]
  exact List.map_congr_left fun entry _ => congrArg (entry.1, ·) (entries_written entry.2.writes)

section Names

variable {d : Description} (names : Settings → List String)

/-- What is said of the modules that are added on every platform. -/
theorem filterMap_added {f : Call → Option String} (hr : ∀ problem, f (.report problem) = none)
    (hs : ∀ platform, f (.support platform) = none)
    (he : ∀ platform, f (.exclude platform) = none)
    (hw : ∀ name value, f (.setVariable name value .everywhere) = none)
    (nothing : ∀ (s : Settings) platform, (s.calls (.only platform)).filterMap f = [])
    (shared : ∀ s : Settings, (s.calls .everywhere).filterMap f = names s) :
    d.calls.filterMap f = names d.settings := by
  rw [filterMap_calls_shared f hr hs he nothing, shared, Settings.filterMap_writes f hw,
    List.append_nil]

/-- What is said of the modules that are added on single platforms. -/
theorem foldl_added {f : Call → Option (Platform × String)}
    (hr : ∀ problem, f (.report problem) = none) (hs : ∀ platform, f (.support platform) = none)
    (he : ∀ platform, f (.exclude platform) = none)
    (hw : ∀ name value, f (.setVariable name value .everywhere) = none)
    (ha : ∀ name, f (.addScript name .everywhere) = none)
    (hn : ∀ name, f (.addNative name .everywhere) = none)
    (single : ∀ (s : Settings) platform, (s.calls (.only platform)).filterMap f =
      (names s).filterMap fun name => Call.onKnown platform (·, name)) :
    ((d.calls.filterMap f).foldl Configuration.addOn {}).entries =
      (d.known.filter fun entry => !(names entry.2).isEmpty).map fun entry =>
        (entry.1, names entry.2) := by
  have filled := foldl_overrides d [] (fun l name => l ++ [name]) names
  simp only [foldl_concat] at filled
  rw [filterMap_calls_overrides f hr hs he hw ha hn]
  simp only [single]
  exact filled

end Names

theorem configure_scripts (d : Description) :
    d.configure.scripts = d.settings.scriptNames := by
  have added := filterMap_added (d := d) Settings.scriptNames (f := Call.script?) (fun _ => rfl)
    (fun _ => rfl) (fun _ => rfl) (fun _ _ => rfl)
    (fun s _ => Settings.filterMap_calls_nil _ (fun _ _ => rfl) (fun _ => rfl) (fun _ => rfl) s)
    fun s => by
      rw [Settings.filterMap_calls_module _ (fun _ _ => rfl)]
      simp [Call.script?]
  rw [configure, Configuration.run_scripts, added, List.nil_append]

theorem configure_natives (d : Description) :
    d.configure.natives = d.settings.nativeNames := by
  have added := filterMap_added (d := d) Settings.nativeNames (f := Call.native?) (fun _ => rfl)
    (fun _ => rfl) (fun _ => rfl) (fun _ _ => rfl)
    (fun s _ => Settings.filterMap_calls_nil _ (fun _ _ => rfl) (fun _ => rfl) (fun _ => rfl) s)
    fun s => by
      rw [Settings.filterMap_calls_module _ (fun _ _ => rfl)]
      simp [Call.native?]
  rw [configure, Configuration.run_natives, added, List.nil_append]

theorem configure_platformScripts (d : Description) : d.configure.platformScripts.entries =
    (d.known.filter fun entry => !entry.2.scriptNames.isEmpty).map fun entry =>
      (entry.1, entry.2.scriptNames) := by
  rw [configure, Configuration.run_platformScripts]
  refine foldl_added Settings.scriptNames (fun _ => rfl) (fun _ => rfl) (fun _ => rfl)
    (fun _ _ => rfl) (fun _ => rfl) (fun _ => rfl) fun s platform => ?_
  rw [Settings.filterMap_calls_module _ (fun _ _ => rfl)]
  simp [Call.platformScript?]

theorem configure_platformNatives (d : Description) : d.configure.platformNatives.entries =
    (d.known.filter fun entry => !entry.2.nativeNames.isEmpty).map fun entry =>
      (entry.1, entry.2.nativeNames) := by
  rw [configure, Configuration.run_platformNatives]
  refine foldl_added Settings.nativeNames (fun _ => rfl) (fun _ => rfl) (fun _ => rfl)
    (fun _ _ => rfl) (fun _ => rfl) (fun _ => rfl) fun s platform => ?_
  rw [Settings.filterMap_calls_module _ (fun _ _ => rfl)]
  simp [Call.platformNative?]

end Description

end CMakeScript
