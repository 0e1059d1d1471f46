import CMakeScript.Proofs.Blocks
import CMakeScript.Proofs.LastValue
import CMakeScript.Proofs.ScriptReading
import CMakeScript.Proofs.SourceText

/-!
# Variables have the value of the right scope

CMake sets the variables of the default section first and then those of each block whose condition
is true. `bound_by_last_scope` says which value a variable has in the end: the one of the last
platform that holds and binds it, otherwise the default one.
-/

namespace CMakeScript

open Lexer

/-! ### Executing the sections of variables -/

def Table.setAll (env : Table String String) (pairs : List (String × String)) :
    Table String String :=
  pairs.foldl (fun t pair => t.set pair.1 pair.2) env

def runCommands (env : Table String String) (text : String) : Option (Table String String) :=
  (assignments? text).map env.setAll

/-- A block is executed where its condition is true, and passed over elsewhere. -/
def runBlock (isTrue : String → Bool) (env : Table String String) (block : String × String) :
    Option (Table String String) :=
  if isTrue block.1 then runCommands env block.2 else some env

/-- The variables after the default section and the section of the platforms. -/
def runBindings (isTrue : String → Bool) (shared blocks : String) :
    Option (Table String String) :=
  (runCommands {} shared).bind fun env =>
    (blocks? blocks).bind fun found => found.foldlM (runBlock isTrue) env

/-- The value that a variable is given last by the platforms that hold. -/
def lastScope (isTrue : String → Bool) (entries : List (Platform × Table String String))
    (name : String) : Option String :=
  ((entries.filter fun entry => isTrue entry.1.token).filterMap
    fun entry => entry.2.get? name).getLast?

section Run

variable (isTrue : String → Bool)

theorem lastScope_cons (entry : Platform × Table String String)
    (rest : List (Platform × Table String String)) (name : String) :
    lastScope isTrue (entry :: rest) name =
      (lastScope isTrue rest name).or
        (if isTrue entry.1.token then entry.2.get? name else none) := by
  unfold lastScope
  rw [List.filter_cons]
  cases holds : isTrue entry.1.token with
  | false => simp
  | true =>
    cases found : entry.2.get? name with
    | none => simp [found]
    | some value => simp [found, List.getLast?_cons]

def bindingBlock (entry : Platform × List (String × List String)) : String × String :=
  (entry.1.token, "\n".intercalate (Section.setCommands (written entry.2)))

def bindingTable (entry : Platform × List (String × List String)) :
    Platform × Table String String :=
  (entry.1, Table.ofList (written entry.2))

theorem runBlock_bindingBlock {entry : Platform × List (String × List String)}
    (ne : entry.2 ≠ []) (named : ∀ binding ∈ entry.2, isName binding.1 = true)
    (env : Table String String) :
    runBlock isTrue env (bindingBlock entry) =
      some (if isTrue entry.1.token then env.setAll (written entry.2) else env) := by
  have read := assignments?_setCommands ne named "" rfl
  rw [String.append_empty] at read
  unfold runBlock runCommands bindingBlock
  rw [read]
  split <;> rfl

/-- Each block gives its variables new values if it is executed, so the last one decides. -/
theorem runBlocks {entries : List (Platform × List (String × List String))}
    (filled : ∀ entry ∈ entries, entry.2 ≠ [])
    (named : ∀ entry ∈ entries, ∀ binding ∈ entry.2, isName binding.1 = true)
    (env : Table String String) :
    ∃ last, (entries.map bindingBlock).foldlM (runBlock isTrue) env = some last ∧
      ∀ name, last.get? name =
        (lastScope isTrue (entries.map bindingTable) name).or (env.get? name) := by
  induction entries generalizing env with
  | nil => exact ⟨env, rfl, fun name => rfl⟩
  | cons entry rest ih =>
    have step := runBlock_bindingBlock isTrue (filled entry List.mem_cons_self)
      (named entry List.mem_cons_self) env
    obtain ⟨last, run, values⟩ :=
      ih (fun other mem => filled other (List.mem_cons_of_mem _ mem))
        (fun other mem => named other (List.mem_cons_of_mem _ mem))
        (if isTrue entry.1.token then env.setAll (written entry.2) else env)
    refine ⟨last, ?_, fun name => ?_⟩
    · rw [List.map_cons, List.foldlM_cons, step]
      exact run
    · rw [values, List.map_cons, lastScope_cons, Option.or_assoc]
      unfold bindingTable Table.setAll
      split
      · rw [Table.get?_foldl_set]
      -- A block that is passed over leaves the variables as they are.
      · rfl

theorem runBindings_sections {shared : List (String × List String)}
    {entries : List (Platform × List (String × List String))}
    (sharedNamed : ∀ binding ∈ shared, isName binding.1 = true)
    (filled : ∀ entry ∈ entries, entry.2 ≠ [])
    (named : ∀ entry ∈ entries, ∀ binding ∈ entry.2, isName binding.1 = true) :
    ∃ env, runBindings isTrue (Section.bindings (written shared))
        (Section.platformBindings (entries.map fun entry => (entry.1, written entry.2))) =
          some env ∧
      ∀ name, env.get? name =
        (lastScope isTrue (entries.map bindingTable) name).or
          ((Table.ofList (written shared)).get? name) := by
  have first := assignments?_bindings sharedNamed
  have kept : (entries.map fun entry => (entry.1, written entry.2)).filter
      (fun entry => !(Section.setCommands entry.2).isEmpty) =
        entries.map fun entry => (entry.1, written entry.2) := by
    rw [List.filter_eq_self]
    intro entry mem
    obtain ⟨own, inside, rfl⟩ := List.mem_map.mp mem
    simpa [Section.setCommands, written] using filled own inside
  have found := blocks?_platformBlocks "\n" Section.setCommands
    (entries.map fun entry => (entry.1, written entry.2))
  rw [kept, List.map_map] at found
  obtain ⟨last, run, values⟩ := runBlocks isTrue filled named
    (Table.ofList (written shared))
  refine ⟨last, ?_, values⟩
  rw [runBindings, runCommands, first, Section.platformBindings, found]
  exact run

end Run

theorem Table.entries_ofList_ne_nil {κ α : Type} [DecidableEq κ] {pairs : List (κ × α)}
    (ne : pairs ≠ []) : (ofList pairs).entries ≠ [] := by
  intro empty
  have found := get?_ofList_append pairs.dropLast [pairs.getLast ne] (pairs.getLast ne).1
  rw [List.dropLast_append_getLast, get?_ofList_singleton, if_pos rfl, get?, empty] at found
  cases found

theorem get?_written_ofList (pairs : List (String × List String)) (name : String) :
    (Table.ofList (written (Table.ofList pairs).entries)).get? name =
      (Table.ofList (written pairs)).get? name := by
  rw [← Description.entries_written, Table.get?_ofList_entries (Table.nodup_keys_ofList _)]

/-! ### The sections of a configuration -/

namespace Configuration

def defaultSection (c : Configuration) : String := Section.bindings c.bindings.entries

def platformSection (c : Configuration) : String :=
  Section.platformBindings (c.platformBindings.entries.map fun e => (e.1, e.2.entries))

theorem join_sections (c : Configuration) : String.join c.sections =
    String.join (c.sections.take 4) ++
      (c.defaultSection ++ (c.platformSection ++ String.join (c.sections.drop 6))) := by
  simp [sections, defaultSection, platformSection, String.append_assoc]

end Configuration

namespace Description

theorem bindings_eq (d : Description) :
    d.configure.bindings = Table.ofList (written d.writes) := by
  have same := configure_bindings d
  rw [bound, ← entries_written] at same
  exact congrArg Table.mk same

theorem platformBindings_entries (d : Description) :
    d.configure.platformBindings.entries =
      (d.known.filter fun entry => !entry.2.writes.isEmpty).map fun entry =>
        (entry.1, Table.ofList (written entry.2.writes)) := by
  have injective : Function.Injective fun entry : Platform × Table String String =>
      (entry.1, entry.2.entries) := by
    rintro ⟨p, ⟨first⟩⟩ ⟨q, ⟨second⟩⟩ same
    simpa using same
  have same := configure_platformBindings d
  refine List.map_injective_iff.mpr injective ?_
  rw [same, List.map_map]
  refine List.map_congr_left fun entry _ => ?_
  simp [entries_written, Settings.bound]

/-- The table holds the platforms that are known and bind a variable, in the order in which the
description has them. -/
theorem keys_platformBindings (d : Description) : d.configure.platformBindings.keys =
    (d.overrides.filter fun entry => !entry.2.writes.isEmpty).filterMap
      fun entry => Platform.ofId? entry.1 := by
  rw [Table.keys, platformBindings_entries, List.map_map, known, List.filter_filterMap,
    List.map_filterMap, List.filterMap_filter]
  refine List.filterMap_congr fun entry _ => ?_
  cases Platform.ofId? entry.1 <;> by_cases empty : entry.2.writes = [] <;> simp [empty]

/-- A variable has in the end the value that it is given by the last platform of the table that
holds and binds it, otherwise the default value, and it is not set if there is neither. -/
theorem bound_by_last_scope {raw : Data} {d : Description} (accepted : read raw = .ok d)
    (isTrue : String → Bool) :
    d.generate.script ++ "\n" = String.join (d.configure.sections.take 4) ++
        (d.configure.defaultSection ++ (d.configure.platformSection ++
          String.join (d.configure.sections.drop 6))) ∧
      d.configure.platformBindings.keys =
        (d.overrides.filter fun entry => !entry.2.writes.isEmpty).filterMap
          (fun entry => Platform.ofId? entry.1) ∧
      ∃ env, runBindings isTrue d.configure.defaultSection d.configure.platformSection =
          some env ∧
        ∀ name, env.get? name =
          (lastScope isTrue d.configure.platformBindings.entries name).or
            (d.configure.bindings.get? name) := by
  have named := wellNamed_of_read accepted
  have text : d.generate.script ++ "\n" = String.join d.configure.sections := by
    apply String.ext
    simpa [generate] using script_append_newline d.configure
  have filled : ∀ entry ∈ (d.known.filter fun entry => !entry.2.writes.isEmpty).map
      (fun entry => (entry.1, entry.2.bound)), entry.2 ≠ [] := by
    intro entry mem
    obtain ⟨own, inside, rfl⟩ := List.mem_map.mp mem
    have writes : own.2.writes ≠ [] := by simpa using (List.mem_filter.mp inside).2
    exact Table.entries_ofList_ne_nil writes
  obtain ⟨env, run, values⟩ := runBindings_sections isTrue named.isName_bound filled
    (named.forall_known (fun _ h => h.isName_bound) fun entry => !entry.2.writes.isEmpty)
  rw [← configure_bindings, List.map_map] at run
  refine ⟨text.trans (Configuration.join_sections _), keys_platformBindings d, env, ?_, ?_⟩
  · rw [Configuration.platformSection, configure_platformBindings]
    exact run
  · intro name
    rw [values, platformBindings_entries, List.map_map, bindings_eq, bound, get?_written_ofList]
    unfold lastScope
    simp only [List.filter_map, List.filterMap_map, Function.comp_def, bindingTable,
      Settings.bound, get?_written_ofList]

/-- Two platforms share a token and bind the same variable, the later one to lines that look like
the end of its block. One binds a variable twice. -/
def layered : Data :=
  .map [("package", .text "foo"),
    ("variables", .map [("X", .text "x"), ("Y", .text "y"), ("Z", .text "z")]),
    ("platforms", .map
      [("linux", .map [("variables", .map
          [("X", .text "first"), ("m_SOURCES", .text "a")]),
        ("nativeModules", .list [.map [("name", .text "m"), ("sources", .text "m c.c")]])]),
       ("solaris", .map [("variables", .map [("X", .text "no")])]),
       ("freebsd", .map [("variables", .map
          [("X", .text "\")\nendif()\nset(Z b"), ("Y", Data.texts ["1", "2 3"])])]),
       ("msys", .map [("variables", .map [("Z", .text "no")])])])]

theorem bound_by_last_scope_layered : ∃ d, read layered = .ok d ∧
    ∃ env, runBindings (· == "UNIX") d.configure.defaultSection d.configure.platformSection =
        some env ∧
      env.get? "X" = some "\"\\\")\nendif()\nset(Z b\"" ∧ env.get? "Y" = some "1 \"2 3\"" ∧
      env.get? "Z" = some "z" ∧ env.get? "m_SOURCES" = some "\"m c.c\"" ∧
      env.get? "W" = none := by
  have found : (read layered).toOption.map (fun d => ["X", "Y", "Z", "m_SOURCES", "W"].map
      fun name => (lastScope (· == "UNIX") d.configure.platformBindings.entries name).or
        (d.configure.bindings.get? name)) =
      some [some "\"\\\")\nendif()\nset(Z b\"", some "1 \"2 3\"", some "z",
        some "\"m c.c\"", none] := by
    decide +kernel
  obtain ⟨d, accepted, bound⟩ := exists_of_read found
  obtain ⟨-, -, env, run, values⟩ := bound_by_last_scope accepted (· == "UNIX")
  simp only [← values, List.map_cons, List.map_nil, List.cons.injEq, and_true] at bound
  exact ⟨d, accepted, env, run, bound⟩

end Description

end CMakeScript
