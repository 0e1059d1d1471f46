import CMakeScript.Proofs.Configured
import CMakeScript.Proofs.Gathering
import CMakeScript.Proofs.VariableNames
import Mathlib.Data.List.Nodup
import Mathlib.Data.List.ProdSigma

/-!
# The variables of a description

A description binds its own variables first, then those for lists of files and of settings of
modules. The latter are named apart from each other as long as the modules are, so what a list is
bound to is what is declared: `wired`.
-/

namespace CMakeScript

/-! ### Lists -/

theorem flatMap_listWrite (lists : List (String × List String)) :
    (lists.flatMap fun entry => listWrite entry.1 entry.2) =
      lists.filter fun entry => !entry.2.isEmpty := by
  induction lists with
  | nil => rfl
  | cons entry rest ih =>
    rw [List.flatMap_cons, ih, List.filter_cons]
    cases empty : entry.2.isEmpty <;> simp [listWrite, empty]

namespace Settings

/-- The variables of modules, each as the name of its module and an ending. -/
def slots (s : Settings) : List (String × String) :=
  s.scriptNames.map (·, "_SOURCES") ++ s.nativeNames ×ˢ Variable.endings

/-- The lists of modules with the variables for them. -/
def moduleLists (s : Settings) : List (String × List String) :=
  (s.scriptModules.getD []).map (fun m => (Variable.sources m.name, m.sources)) ++
    (s.nativeModules.getD []).flatMap (·.lists)

theorem ending_of_mem_slots {s : Settings} {slot : String × String} (mem : slot ∈ s.slots) :
    slot.2 ∈ Variable.endings := by
  rcases List.mem_append.mp mem with script | native
  · obtain ⟨name, -, rfl⟩ := List.mem_map.mp script
    exact List.mem_cons_self
  · exact (List.mem_product.mp native).2

theorem nodup_slots {s : Settings} (distinct : (s.scriptNames ++ s.nativeNames).Nodup) :
    s.slots.Nodup := by
  obtain ⟨scripts, natives, apart⟩ := List.nodup_append.mp distinct
  have scriptSlots : (s.scriptNames.map (·, "_SOURCES")).Nodup :=
    scripts.map fun _ _ same => congrArg Prod.fst same
  have nativeSlots : (s.nativeNames ×ˢ Variable.endings).Nodup := natives.product (by decide)
  refine List.nodup_append.mpr ⟨scriptSlots, nativeSlots, ?_⟩
  rintro slot script other native rfl
  obtain ⟨name, inside, rfl⟩ := List.mem_map.mp script
  exact apart name inside name (List.mem_product.mp native).1 rfl

theorem keys_moduleLists (s : Settings) :
    s.moduleLists.map (·.1) = s.slots.map fun slot => slot.1 ++ slot.2 := by
  have native (m : NativeModule) :
      m.lists.map (·.1) = (Variable.endings.map (m.name, ·)).map fun slot => slot.1 ++ slot.2 := rfl
  have natives : ((s.nativeModules.getD []).flatMap (·.lists)).map (·.1) =
      (s.nativeNames ×ˢ Variable.endings).map fun slot => slot.1 ++ slot.2 := by
    show _ = (s.nativeNames.product Variable.endings).map _
    rw [List.product, nativeNames, List.flatMap_map, List.map_flatMap, List.map_flatMap]
    simp only [native]
  rw [moduleLists, slots, List.map_append, List.map_append, natives, scriptNames, List.map_map,
    List.map_map, List.map_map]
  rfl

theorem nodup_keys_moduleLists {s : Settings} (distinct : (s.scriptNames ++ s.nativeNames).Nodup) :
    (s.moduleLists.map (·.1)).Nodup := by
  rw [keys_moduleLists]
  refine List.Nodup.map_on ?_ (nodup_slots distinct)
  intro slot inside other also same
  have parts := (Variable.append_ending_inj (ending_of_mem_slots inside)
    (ending_of_mem_slots also)).mp same
  exact Prod.ext parts.1 parts.2

theorem not_mem_fixed {s : Settings} {name : String} (mem : name ∈ s.moduleLists.map (·.1)) :
    name ∉ Variable.fixed := by
  rw [keys_moduleLists] at mem
  obtain ⟨slot, inside, rfl⟩ := List.mem_map.mp mem
  exact Variable.append_ending_not_mem_fixed slot.1 (ending_of_mem_slots inside)

end Settings

namespace Description

/-- The lists of a description with the variables for them, in order. -/
def lists (d : Description) : List (String × List String) :=
  (d.settings.install.getD {}).lists ++ d.settings.moduleLists ++
    [(Variable.copyDirectories, d.copyDirectories.getD [])]

/-- What a description writes to variables on every platform, in order: a text for each of its own
variables and for each list that is not empty. -/
def wiring (d : Description) : List (String × String) :=
  d.settings.variableList.map (fun entry => (entry.1, entry.2.render)) ++
    written (d.lists.filter fun entry => !entry.2.isEmpty)

theorem written_writes (d : Description) : written d.writes = d.wiring := by
  have parts : d.writes = d.settings.variableList.map (fun entry => (entry.1, entry.2.items)) ++
      d.lists.filter fun entry => !entry.2.isEmpty := by
    rw [← flatMap_listWrite]
    simp [writes, Settings.writes, lists, Settings.moduleLists, List.flatMap_map,
      List.flatMap_assoc]
  have own : written (d.settings.variableList.map fun entry => (entry.1, entry.2.items)) =
      d.settings.variableList.map fun entry => (entry.1, entry.2.render) := by
    simp [written, Value.render_eq]
  rw [parts, wiring, ← own]
  exact List.map_append

theorem bindings_run (package : String) (d : Description) :
    (Configuration.run { package } d.calls).bindings = Table.ofList d.wiring := by
  have any : (Configuration.run { package } d.calls).bindings = d.configure.bindings := by
    rw [configure, Configuration.run_bindings, Configuration.run_bindings]
  have entries := (configure_bindings d).trans (entries_written d.writes).symm
  rw [any, ← written_writes]
  exact congrArg Table.mk entries

theorem nodup_keys_lists {d : Description}
    (distinct : (d.settings.scriptNames ++ d.settings.nativeNames).Nodup) :
    (d.lists.map (·.1)).Nodup := by
  have order : (d.lists.map (·.1)).Perm (Variable.fixed ++ d.settings.moduleLists.map (·.1)) := by
    rw [lists, List.map_append, List.map_append, List.append_assoc]
    exact List.Perm.append_left ((d.settings.install.getD {}).lists.map (·.1)) List.perm_append_comm
  rw [order.nodup_iff, List.nodup_append]
  refine ⟨by decide, Settings.nodup_keys_moduleLists distinct, ?_⟩
  rintro name known other mem rfl
  exact Settings.not_mem_fixed mem known

/-- The variables that a description binds by its own names are out of the way of its lists, since
they are bound before. -/
theorem get?_wiring {d : Description}
    (distinct : (d.settings.scriptNames ++ d.settings.nativeNames).Nodup)
    {entry : String × List String} (mem : entry ∈ d.lists) (ne : entry.2 ≠ []) :
    (Table.ofList d.wiring).get? entry.1 = some (Argument.renderList entry.2) := by
  have keys : ((written (d.lists.filter fun entry => !entry.2.isEmpty)).map (·.1)).Nodup := by
    rw [written, List.map_map]
    exact (nodup_keys_lists distinct).sublist (List.filter_sublist.map _)
  have filled : (!entry.2.isEmpty) = true := by simpa using ne
  have inside : (entry.1, Argument.renderList entry.2) ∈
      written (d.lists.filter fun entry => !entry.2.isEmpty) :=
    List.mem_map.mpr ⟨entry, List.mem_filter.mpr ⟨mem, filled⟩, rfl⟩
  rw [wiring, Table.get?_ofList_append, Table.get?_ofList_of_mem keys inside, Option.some_or]

/-- A fresh configuration takes up the variables of a description in the order in which they are
first written, each with what is last written to it. The variables of modules differ from each other
and from the others, so if no two modules share a name, every list that is not empty is what its
variable is bound to. -/
theorem wired (package : String) (d : Description) :
    let bindings := (Configuration.run { package } d.calls).bindings
    bindings = Table.gather List.getLast? d.wiring ∧
      (∀ a b, ∀ s ∈ Variable.endings, ∀ t ∈ Variable.endings,
        a ++ s = b ++ t ↔ a = b ∧ s = t) ∧
      (∀ a, ∀ s ∈ Variable.endings, a ++ s ∉ Variable.fixed) ∧
      ((d.settings.scriptNames ++ d.settings.nativeNames).Nodup →
        ∀ entry ∈ d.lists, entry.2 ≠ [] →
          bindings.get? entry.1 = some (Argument.renderList entry.2)) := by
  intro bindings
  have filled : bindings = Table.ofList d.wiring := bindings_run package d
  refine ⟨filled.trans (Table.ofList_eq_gather d.wiring), fun a b s hs t ht => ?_, fun a s hs => ?_,
    fun distinct entry mem ne => ?_⟩
  · exact Variable.append_ending_inj hs ht
  · exact Variable.append_ending_not_mem_fixed a hs
  · rw [filled]
    exact get?_wiring distinct mem ne

/-- Some of its variables are numbered or named like a list, and a module is named like the variables
for installed files. -/
def entangled : Description where
  package := "foo"
  settings := {
    bindings := some (Record.ofList
      [("b_SOURCES", .list ["x", "y"]), ("10", .list []), ("2", .text "")])
    scriptModules := some [⟨"b", ["b c.lua"]⟩]
    nativeModules := some
      [{ name := "BUILD_INSTALL", sources := ["i.c"], libraries := some ["m"], defines := some [] }]
    install := some { lua := some ["z.lua"] } }
  copyDirectories := some ["doc"]

theorem wired_entangled :
    (entangled.settings.scriptNames ++ entangled.settings.nativeNames).Nodup ∧
      (Configuration.run { package := "bar" } entangled.calls).bindings.entries =
        [("2", "\"\""), ("10", ""), ("b_SOURCES", "\"b c.lua\""), ("BUILD_INSTALL_LUA", "z.lua"),
          ("BUILD_INSTALL_SOURCES", "i.c"), ("BUILD_INSTALL_LIBRARIES", "m"),
          ("BUILD_COPY_DIRECTORIES", "doc")] ∧
      (Configuration.run { package := "bar" } entangled.calls).bindings.get? "b_SOURCES" =
        some (Argument.renderList ["b c.lua"]) := by
  have distinct : (entangled.settings.scriptNames ++ entangled.settings.nativeNames).Nodup := by
    decide
  obtain ⟨gathered, -, -, own⟩ := wired "bar" entangled
  refine ⟨distinct, ?_, own distinct ("b_SOURCES", ["b c.lua"]) (by decide +kernel) (by decide)⟩
  rw [gathered]
  decide +kernel

end Description

end CMakeScript
