import CMakeScript.Proofs.LastValue
import CMakeScript.Proofs.Spelling
import CMakeScript.Proofs.VariableNames
import CMakeScript.Proofs.WellNamed

/-!
# The sources of modules

Every module reads its sources from a variable that is named after it. Native modules are wired
last, so they always have their own sources. A script module has its own unless a native module of
the same name brings others: `bound_to_own_sources`.
-/

namespace CMakeScript

theorem get?_listWrite (name key : String) (items : List String) :
    (Table.ofList (listWrite name items)).get? key =
      if name = key ∧ items ≠ [] then some items else none := by
  unfold listWrite
  cases items with
  | nil => simp [Table.ofList, Table.get?, Table.lookup]
  | cons item rest =>
    rw [List.isEmpty_cons, if_neg Bool.false_ne_true, Table.get?_ofList_singleton]
    by_cases same : key = name
    · simp [same]
    · simp [same, Ne.symm same]

theorem not_mem_keys_listWrites {lists : List (String × List String)} {key : String}
    (absent : key ∉ lists.map (·.1)) :
    key ∉ (lists.flatMap fun entry => listWrite entry.1 entry.2).map (·.1) := by
  intro mem
  obtain ⟨binding, inside, rfl⟩ := List.mem_map.mp mem
  obtain ⟨entry, listed, written⟩ := List.mem_flatMap.mp inside
  rw [eq_of_mem_listWrite written] at absent
  exact absent (List.mem_map_of_mem listed)

/-- The sources of the last module that has the name and any sources. -/
def lastSources (modules : List (String × List String)) (name : String) : Option (List String) :=
  (modules.filterMap fun m => if m.1 = name ∧ m.2 ≠ [] then some m.2 else none).getLast?

theorem lastSources_of_mem {modules : List (String × List String)}
    (distinct : (modules.map (·.1)).Nodup) {m : String × List String} (mem : m ∈ modules)
    (ne : m.2 ≠ []) : lastSources modules m.1 = some m.2 := by
  have own : m.2 ∈ modules.filterMap fun o => if o.1 = m.1 ∧ o.2 ≠ [] then some o.2 else none :=
    List.mem_filterMap.mpr ⟨m, mem, if_pos ⟨rfl, ne⟩⟩
  have only : ∀ sources ∈ modules.filterMap fun o =>
      if o.1 = m.1 ∧ o.2 ≠ [] then some o.2 else none, sources = m.2 := by
    intro sources inside
    obtain ⟨o, listed, same⟩ := List.mem_filterMap.mp inside
    split at same
    next named =>
      cases same
      rw [List.inj_on_of_nodup_map distinct listed mem named.1]
    next => cases same
  obtain ⟨last, found⟩ := Option.isSome_iff_exists.mp
    (List.getLast?_isSome.mpr (List.ne_nil_of_mem own))
  rw [lastSources, found, only last (List.mem_of_getLast? found)]

theorem lastSources_of_none {modules : List (String × List String)} {name : String}
    (none : ∀ m ∈ modules, m.1 = name → m.2 = []) : lastSources modules name = Option.none := by
  have nothing : (modules.filterMap fun m =>
      if m.1 = name ∧ m.2 ≠ [] then some m.2 else Option.none) = [] := by
    apply List.filterMap_eq_nil_iff.mpr
    intro m mem
    rw [if_neg]
    rintro ⟨named, ne⟩
    exact ne (none m mem named)
  rw [lastSources, nothing]
  rfl

theorem NativeModule.get?_sources (m : NativeModule) (name : String) :
    (Table.ofList (m.lists.flatMap fun entry => listWrite entry.1 entry.2)).get?
        (Variable.sources name) =
      if m.name = name ∧ m.sources ≠ [] then some m.sources else none := by
  have others := Table.get?_ofList_of_not_mem
    (not_mem_keys_listWrites (m.sources_not_mem_tail name))
  have split : (m.lists.flatMap fun entry => listWrite entry.1 entry.2) =
      listWrite (Variable.sources m.name) m.sources ++
        m.lists.tail.flatMap fun entry => listWrite entry.1 entry.2 := rfl
  rw [split, Table.get?_ofList_append, others, Option.none_or, get?_listWrite]
  simp only [Variable.sources_inj]

namespace Settings

def scriptSources (s : Settings) : List (String × List String) :=
  (s.scriptModules.getD []).map fun m => (m.name, m.sources)

def nativeSources (s : Settings) : List (String × List String) :=
  (s.nativeModules.getD []).map fun m => (m.name, m.sources)

/-- The bindings that settings make before they come to the modules. -/
def earlyWrites (s : Settings) : List (String × List String) :=
  s.variableList.map (fun entry => (entry.1, entry.2.items)) ++
    (s.install.getD {}).lists.flatMap fun entry => listWrite entry.1 entry.2

/-- The native modules decide, then the script modules, then everything else. -/
theorem get?_sources (s : Settings) (name : String) :
    (Table.ofList s.writes).get? (Variable.sources name) =
      ((lastSources s.nativeSources name).or (lastSources s.scriptSources name)).or
        ((Table.ofList s.earlyWrites).get? (Variable.sources name)) := by
  have natives : (Table.ofList ((s.nativeModules.getD []).flatMap fun m =>
      m.lists.flatMap fun entry => listWrite entry.1 entry.2)).get? (Variable.sources name) =
        lastSources s.nativeSources name := by
    rw [Table.get?_ofList_flatMap, lastSources, nativeSources, List.filterMap_map]
    simp only [NativeModule.get?_sources, Function.comp_def]
  have scripts : (Table.ofList ((s.scriptModules.getD []).flatMap fun m =>
      listWrite (Variable.sources m.name) m.sources)).get? (Variable.sources name) =
        lastSources s.scriptSources name := by
    rw [Table.get?_ofList_flatMap, lastSources, scriptSources, List.filterMap_map]
    simp only [get?_listWrite, Variable.sources_inj, Function.comp_def]
  rw [writes, Table.get?_ofList_append, Table.get?_ofList_append, natives, scripts,
    Option.or_assoc]
  rfl

end Settings

namespace Description

theorem get?_bindings (d : Description) (name : String) :
    d.configure.bindings.get? name =
      ((Table.ofList d.writes).get? name).map Argument.renderList := by
  rw [Table.get?, configure_bindings]
  exact Table.lookup_map Argument.renderList name d.bound

theorem get?_writes_sources (d : Description) (name : String) :
    (Table.ofList d.writes).get? (Variable.sources name) =
      (Table.ofList d.settings.writes).get? (Variable.sources name) := by
  have other : Variable.copyDirectories ≠ Variable.sources name :=
    (Variable.sources_ne name (by decide)).symm
  rw [writes, Table.get?_ofList_append, get?_listWrite, if_neg fun both => other both.1,
    Option.none_or]

variable {d : Description}

/-- Native modules are built from their own sources. -/
theorem get?_sources_of_native (distinct : d.settings.nativeNames.Nodup) {m : NativeModule}
    (mem : m ∈ d.settings.nativeModules.getD []) (ne : m.sources ≠ []) :
    (Table.ofList d.writes).get? (Variable.sources m.name) = some m.sources := by
  have names : (d.settings.nativeSources.map (·.1)).Nodup := by
    simpa [Settings.nativeSources, Settings.nativeNames, Function.comp_def] using distinct
  have last := lastSources_of_mem (m := (m.name, m.sources)) names (List.mem_map_of_mem mem) ne
  rw [get?_writes_sources, Settings.get?_sources, last, Option.some_or, Option.some_or]

theorem get?_sources_of_script (distinct : d.settings.scriptNames.Nodup) {m : ScriptModule}
    (mem : m ∈ d.settings.scriptModules.getD []) (ne : m.sources ≠ [])
    (alone : ∀ n ∈ d.settings.nativeModules.getD [], n.name = m.name → n.sources = []) :
    (Table.ofList d.writes).get? (Variable.sources m.name) = some m.sources := by
  have names : (d.settings.scriptSources.map (·.1)).Nodup := by
    simpa [Settings.scriptSources, Settings.scriptNames, Function.comp_def] using distinct
  have last := lastSources_of_mem (m := (m.name, m.sources)) names (List.mem_map_of_mem mem) ne
  have natives : lastSources d.settings.nativeSources m.name = none := by
    apply lastSources_of_none
    intro entry listed named
    obtain ⟨n, inside, rfl⟩ := List.mem_map.mp listed
    exact alone n inside named
  rw [get?_writes_sources, Settings.get?_sources, natives, last, Option.none_or, Option.some_or]

/-- Native modules are built from their own sources, whatever else the description binds. A script
module is installed from its own exactly if no native module of the same name has other ones. -/
theorem bound_to_own_sources (scripts : d.settings.scriptNames.Nodup)
    (natives : d.settings.nativeNames.Nodup) :
    (∀ m ∈ d.settings.nativeModules.getD [], m.sources ≠ [] →
      d.configure.bindings.get? (Variable.sources m.name) =
        some (Argument.renderList m.sources)) ∧
    ∀ m ∈ d.settings.scriptModules.getD [], m.sources ≠ [] →
      (d.configure.bindings.get? (Variable.sources m.name) =
          some (Argument.renderList m.sources) ↔
        ∀ n ∈ d.settings.nativeModules.getD [], n.name = m.name → n.sources ≠ [] →
          n.sources = m.sources) := by
  constructor
  · intro m mem ne
    rw [get?_bindings, get?_sources_of_native natives mem ne]
    rfl
  · intro m mem ne
    rw [get?_bindings]
    by_cases alone : ∀ n ∈ d.settings.nativeModules.getD [], n.name = m.name → n.sources = []
    · rw [get?_sources_of_script scripts mem ne alone]
      refine ⟨fun _ n listed named filled => ?_, fun _ => rfl⟩
      exact absurd (alone n listed named) filled
    · push Not at alone
      obtain ⟨n, listed, named, filled⟩ := alone
      rw [← named, get?_sources_of_native natives listed filled]
      simp only [Option.map_some, Option.some.injEq, Lexer.renderList_inj]
      constructor
      · intro same other inside sameName _
        rwa [List.inj_on_of_nodup_map natives inside listed sameName]
      · intro all
        exact all n listed rfl filled

/-- Other bindings have the names of the variables of modules, and a native module has no sources of
its own. -/
def crowded : Data :=
  .map [("package", .text "foo"),
    ("variables", .map [("a_SOURCES", .text "x"), ("b_SOURCES", .text "y")]),
    ("install", .map [("lua", Data.texts ["z"])]),
    ("scriptModules", .list [.map [("name", .text "a"), ("sources", .text "a b.lua")]]),
    ("nativeModules", .list
      [.map [("name", .text "a"), ("sources", .list [])],
       .map [("name", .text "b"), ("sources", Data.texts ["b.c", "c.c"]),
         ("libraries", Data.texts ["m"])]])]

theorem bound_to_own_sources_crowded : ∃ d, read crowded = .ok d ∧
    d.settings.scriptNames.Nodup ∧ d.settings.nativeNames.Nodup ∧
    d.configure.bindings.get? "a_SOURCES" = some "\"a b.lua\"" ∧
    d.configure.bindings.get? "b_SOURCES" = some "b.c c.c" := by
  have found : (read crowded).toOption.map
      (fun d => (d.settings.scriptModules, d.settings.nativeModules)) =
      some (some [⟨"a", ["a b.lua"]⟩],
        some [{ name := "a", sources := [] },
          { name := "b", sources := ["b.c", "c.c"], libraries := some ["m"] }]) := by
    decide +kernel
  obtain ⟨d, accepted, modules⟩ := exists_of_read found
  obtain ⟨scripts, natives⟩ := Prod.mk.inj modules
  have scriptNames : d.settings.scriptNames.Nodup := by
    rw [Settings.scriptNames, scripts]
    decide
  have nativeNames : d.settings.nativeNames.Nodup := by
    rw [Settings.nativeNames, natives]
    decide
  obtain ⟨built, installed⟩ := bound_to_own_sources scriptNames nativeNames
  rw [natives] at built installed
  rw [scripts] at installed
  refine ⟨d, accepted, scriptNames, nativeNames, ?_, ?_⟩
  · have own := (installed ⟨"a", ["a b.lua"]⟩ (by simp) (by simp)).mpr (by simp)
    exact own.trans (by decide +kernel)
  · have own := built { name := "b", sources := ["b.c", "c.c"], libraries := some ["m"] }
      (by simp) (by simp)
    exact own.trans (by decide +kernel)

def sharedName : Data :=
  .map [("package", .text "foo"),
    ("scriptModules", .list [.map [("name", .text "a"), ("sources", .text "a.lua")]]),
    ("nativeModules", .list [.map [("name", .text "a"), ("sources", .text "a.c")]])]

/-- A script module is installed from the sources of the native module that shares its name. -/
theorem shared_name_loses_sources : ∃ d, read sharedName = .ok d ∧
    d.settings.scriptNames.Nodup ∧ d.settings.nativeNames.Nodup ∧
    d.settings.scriptModules = some [⟨"a", ["a.lua"]⟩] ∧
    d.configure.bindings.get? (Variable.sources "a") ≠ some (Argument.renderList ["a.lua"]) ∧
    d.configure.bindings.get? (Variable.sources "a") = some "a.c" := by
  have found : (read sharedName).toOption.map (fun d =>
      (d.settings.scriptModules, d.settings.nativeNames,
        d.configure.bindings.get? (Variable.sources "a"))) =
      some (some [⟨"a", ["a.lua"]⟩], ["a"], some "a.c") := by decide +kernel
  obtain ⟨d, accepted, parts⟩ := exists_of_read found
  obtain ⟨scripts, rest⟩ := Prod.mk.inj parts
  obtain ⟨natives, bound⟩ := Prod.mk.inj rest
  refine ⟨d, accepted, ?_, ?_, scripts, ?_, bound⟩
  · rw [Settings.scriptNames, scripts]
    decide
  · rw [natives]
    decide
  · rw [bound]
    decide

end Description

end CMakeScript
