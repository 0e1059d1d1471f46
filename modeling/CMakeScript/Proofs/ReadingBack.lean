import CMakeScript.Description.Writer
import CMakeScript.Proofs.Reading
import CMakeScript.Proofs.WellNamed

/-!
# Descriptions are read back

A written description is read as itself, with the order of its variables and platforms, as long as
the names in it are names. Every description that has been read is one of these: `read_toData_iff`.
-/

namespace CMakeScript

/-! ### Written fields -/

namespace Data

/-- The entries for fields of which some may be missing. -/
def present (fields : List (String × Option Data)) : List (String × Data) :=
  fields.filterMap fun field => field.2.map (field.1, ·)

/-- Fields with these names keep their order in a mapping. -/
def AreFieldNames (names : List String) : Prop :=
  names.Nodup ∧ ∀ name ∈ names, Record.index? name = none

instance (names : List String) : Decidable (AreFieldNames names) :=
  inferInstanceAs (Decidable (_ ∧ _))

theorem mem_present {fields : List (String × Option Data)} {entry : String × Data} :
    entry ∈ present fields ↔ (entry.1, some entry.2) ∈ fields := by
  unfold present
  rw [List.mem_filterMap]
  constructor
  · rintro ⟨⟨name, part⟩, mem, written⟩
    obtain ⟨d, rfl, rfl⟩ := Option.map_eq_some_iff.mp written
    exact mem
  · intro mem
    exact ⟨_, mem, rfl⟩

theorem present_nil : present [] = [] := rfl

theorem present_some (name : String) (d : Data) (rest : List (String × Option Data)) :
    present ((name, some d) :: rest) = (name, d) :: present rest := rfl

theorem present_part {α : Type} (name : String) (write : α → Data) (part : Option α)
    (rest : List (String × Option Data)) :
    present ((name, part.map write) :: rest) = fieldOf name write part ++ present rest := by
  cases part <;> rfl

theorem keys_present_sublist (fields : List (String × Option Data)) :
    ((present fields).map (·.1)).Sublist (fields.map (·.1)) := by
  induction fields with
  | nil => exact List.Sublist.slnil
  | cons field rest ih =>
    obtain ⟨name, part⟩ := field
    cases part with
    | none => exact ih.cons name
    | some d => exact ih.cons_cons name

theorem entries?_present {fields : List (String × Option Data)}
    (proper : AreFieldNames (fields.map (·.1))) :
    (map (present fields)).entries? = some (present fields) := by
  obtain ⟨distinct, plain⟩ := proper
  -- No field is an index key, so none is moved in front of those that are written before it.
  have ordered : (fields.map (·.1)).Pairwise Record.Precedes := by
    refine distinct.imp_of_mem fun first second ne => ?_
    unfold Record.Precedes
    rw [plain _ first, plain _ second]
    exact ne
  have kept : Record.Ordered (present fields) := ordered.sublist (keys_present_sublist fields)
  exact congrArg some (Record.arrange_of_ordered kept)

/-- The entries of a written mapping are the fields that are not missing. -/
theorem exists_entries_present (fields : List (String × Option Data)) (names : List String)
    (keys : fields.map (·.1) = names) (proper : AreFieldNames names) :
    ∃ entries, (map (present fields)).entries? = some entries ∧ Only entries names ∧
      ∀ field ∈ fields, field? entries field.1 = field.2 := by
  subst keys
  have found := entries?_present proper
  refine ⟨_, found, fun entry mem => ?_, fun field mem => ?_⟩
  · exact (keys_present_sublist fields).subset (List.mem_map_of_mem mem)
  · have own : Table.lookup field.1 fields = some field.2 :=
      (Table.lookup_eq_some_iff proper.1).mpr mem
    ext d
    rw [field?_eq_some_iff found, mem_present, ← Table.lookup_eq_some_iff proper.1, own,
      Option.some.injEq]

theorem entries?_ofRecord {α : Type} (write : α → Data) (r : Record α) :
    (ofRecord write r).entries? = some (r.entries.map fun entry => (entry.1, write entry.2)) := by
  -- Index keys and names of prototypes stand where they stand in the record, whatever they are.
  have ordered : Record.Ordered (r.entries.map fun entry => (entry.1, write entry.2)) := by
    unfold Record.Ordered
    rw [List.map_map]
    exact r.ordered
  exact congrArg some (Record.arrange_of_ordered ordered)

end Data

/-! ### Readings of what is written -/

namespace Checked

variable {α δ : Type}

theorem collect_good (values : List α) : collect (values.map good) = good values := by
  have all : (values.map good).filterMap (·.value?) = values := by
    rw [List.filterMap_map]
    exact List.filterMap_some
  simp [collect, all, good]

theorem collect_items {read : Place × δ → Checked α} {write : α → δ} {values : List α}
    (each : ∀ place, ∀ a ∈ values, read (place, write a) = good a) (place : Place) :
    collect ((place.items (values.map write)).map read) = good values := by
  have placed : place.items (values.map write) =
      values.zipIdx.map fun entry => (place.item entry.2, write entry.1) := by
    rw [Place.items, List.zipIdx_map, List.map_map]
    rfl
  have readings : (place.items (values.map write)).map read =
      (values.zipIdx.map (·.1)).map good := by
    rw [placed, List.map_map, List.map_map]
    refine List.map_congr_left fun entry mem => ?_
    exact each _ entry.1 (List.fst_mem_of_mem_zipIdx mem)
  rw [readings, List.zipIdx_map_fst, collect_good]

theorem collect_record {read : String × δ → Checked (String × α)} (write : α → δ) {r : Record α}
    (each : ∀ entry ∈ r.entries, read (entry.1, write entry.2) = good entry) :
    Record.ofList <$>
      collect ((r.entries.map fun entry => (entry.1, write entry.2)).map read) = good r := by
  have readings : (r.entries.map fun entry => (entry.1, write entry.2)).map read =
      r.entries.map good := by
    rw [List.map_map]
    exact List.map_congr_left each
  rw [readings, collect_good]
  exact congrArg good (Record.ofList_entries r)

end Checked

namespace Reader

open Checked Data

theorem onlyFields_of_only {known : List String} {entries : List (String × Data)}
    (only : Only entries known) (place : Place) : onlyFields place known entries = good () := by
  have none : entries.filter (fun entry => !known.contains entry.1) = [] := by
    refine List.filter_eq_nil_iff.mpr fun entry mem => ?_
    simp [only entry mem]
  rw [onlyFields, none]
  rfl

theorem part_written {α : Type} {read : Place → Data → Checked α} {write : α → Data}
    {value : Option α} (each : ∀ place a, value = some a → read place (write a) = good a)
    {entries : List (String × Data)} {field : String}
    (found : field? entries field = value.map write) (place : Place) :
    part read place entries field = good value := by
  unfold part
  rw [found]
  cases value with
  | none => rfl
  | some a =>
    rw [Option.map_some, Checked.optional, each (place.key field) a rfl]
    rfl

theorem text_text (place : Place) (value : String) : text place (.text value) = good value := rfl

theorem nameText_of_isName {value : String} (h : isName value = true) (place : Place) :
    nameText place value = good value :=
  if_pos h

theorem name_text {value : String} (h : isName value = true) (place : Place) :
    name place (some (.text value)) = good value :=
  nameText_of_isName h place

theorem textList_texts (place : Place) (items : List String) :
    textList place (texts items) = good items :=
  collect_items (fun _ _ _ => rfl) place

theorem value_toData (place : Place) (v : Value) : value place v.toData = good v := by
  cases v with
  | text value => rfl
  | list items =>
    show Value.list <$> textList place (texts items) = _
    rw [textList_texts]
    rfl

theorem bindings_ofRecord {r : Record Value} (h : ∀ entry ∈ r.entries, isName entry.1 = true)
    (place : Place) : bindings place (ofRecord Value.toData r) = good r := by
  unfold bindings
  rw [entries?_ofRecord]
  refine collect_record Value.toData fun entry mem => ?_
  dsimp only
  rw [nameText_of_isName (h entry mem), value_toData]
  rfl

theorem sources_texts (place : Place) (items : List String) :
    sources place (some (texts items)) = good items :=
  textList_texts (place.key "sources") items

theorem part_texts {items : Option (List String)} {entries : List (String × Data)} {field : String}
    (found : field? entries field = items.map texts) (place : Place) :
    part textList place entries field = good items :=
  part_written (fun inner own _ => textList_texts inner own) found place

theorem modules_written {α : Type} {read : Place → List (String × Data) → Checked α}
    {write : α → Data} {ms : List α}
    (each : ∀ m ∈ ms, ∃ entries, (write m).entries? = some entries ∧
      ∀ place, read place entries = good m) (place : Place) :
    modules read place (.list (ms.map write)) = good ms := by
  refine collect_items (fun place m mem => ?_) place
  obtain ⟨entries, found, reading⟩ := each m mem
  dsimp only
  rw [found]
  exact reading place

end Reader

/-! ### Mappings that are read back -/

open Data Checked Reader

def ScriptModule.fields (m : ScriptModule) : List (String × Option Data) :=
  [("name", some (.text m.name)), ("sources", some (texts m.sources))]

theorem ScriptModule.read_toData {m : ScriptModule} (h : isName m.name = true) :
    ∃ entries, m.toData.entries? = some entries ∧
      ∀ place, scriptModule place entries = good m := by
  obtain ⟨entries, found, only, given⟩ := exists_entries_present m.fields
    ["name", "sources"] rfl (by decide)
  simp only [fields, List.forall_mem_cons] at given
  obtain ⟨name, sources, -⟩ := given
  refine ⟨entries, found, fun place => ?_⟩
  unfold scriptModule
  rw [onlyFields_of_only only, name, name_text h, sources, sources_texts]
  rfl

def NativeModule.fields (m : NativeModule) : List (String × Option Data) :=
  [("name", some (.text m.name)), ("sources", some (texts m.sources)),
   ("libraries", m.libraries.map texts), ("libdirs", m.libdirs.map texts),
   ("incdirs", m.incdirs.map texts), ("defines", m.defines.map texts)]

theorem NativeModule.toData_eq (m : NativeModule) : m.toData = map (present m.fields) := by
  simp [toData, fields, present_some, present_part, present_nil]

theorem NativeModule.read_toData {m : NativeModule} (h : isName m.name = true) :
    ∃ entries, m.toData.entries? = some entries ∧
      ∀ place, nativeModule place entries = good m := by
  obtain ⟨entries, found, only, given⟩ := exists_entries_present m.fields
    ["name", "sources", "libraries", "libdirs", "incdirs", "defines"] rfl (by decide)
  simp only [fields, List.forall_mem_cons] at given
  obtain ⟨name, sources, libraries, libdirs, incdirs, defines, -⟩ := given
  rw [← m.toData_eq] at found
  refine ⟨entries, found, fun place => ?_⟩
  unfold nativeModule
  rw [onlyFields_of_only only, name, name_text h, sources, sources_texts, part_texts libraries,
    part_texts libdirs, part_texts incdirs, part_texts defines]
  rfl

def Install.fields (i : Install) : List (String × Option Data) :=
  [("lua", i.lua.map texts), ("lib", i.lib.map texts), ("conf", i.conf.map texts),
   ("bin", i.bin.map texts)]

theorem Install.toData_eq (i : Install) : i.toData = map (present i.fields) := by
  simp [toData, fields, present_part, present_nil]

theorem Install.read_toData (place : Place) (i : Install) : install place i.toData = good i := by
  obtain ⟨entries, found, only, given⟩ := exists_entries_present i.fields
    ["lua", "lib", "conf", "bin"] rfl (by decide)
  simp only [fields, List.forall_mem_cons] at given
  obtain ⟨lua, lib, conf, bin, -⟩ := given
  unfold install
  rw [i.toData_eq, found]
  dsimp only
  rw [onlyFields_of_only only, part_texts lua, part_texts lib, part_texts conf, part_texts bin]
  rfl

def Settings.fields (s : Settings) : List (String × Option Data) :=
  [("variables", s.bindings.map (ofRecord Value.toData)),
   ("scriptModules", s.scriptModules.map fun ms => .list (ms.map ScriptModule.toData)),
   ("nativeModules", s.nativeModules.map fun ms => .list (ms.map NativeModule.toData)),
   ("install", s.install.map Install.toData)]

theorem Settings.toFields_eq (s : Settings) : s.toFields = present s.fields := by
  simp [toFields, fields, present_part, present_nil]

theorem Settings.read_fields {s : Settings} (named : s.WellNamed) {entries : List (String × Data)}
    (given : ∀ field ∈ s.fields, field? entries field.1 = field.2) (place : Place) :
    settings place entries = good s := by
  obtain ⟨names, scriptNames, nativeNames⟩ := named
  simp only [fields, List.forall_mem_cons] at given
  obtain ⟨variableMap, scripts, natives, installed, -⟩ := given
  have bound : part Reader.bindings place entries "variables" = good s.bindings := by
    refine part_written (fun inner r own => bindings_ofRecord ?_ inner) variableMap place
    rw [variableList, own] at names
    exact names
  have scriptModules : part (modules scriptModule) place entries "scriptModules" =
      good s.scriptModules := by
    refine part_written (fun inner ms own => modules_written (fun m mem => ?_) inner) scripts place
    rw [own] at scriptNames
    exact ScriptModule.read_toData (scriptNames m mem)
  have nativeModules : part (modules nativeModule) place entries "nativeModules" =
      good s.nativeModules := by
    refine part_written (fun inner ms own => modules_written (fun m mem => ?_) inner) natives place
    rw [own] at nativeNames
    exact NativeModule.read_toData (nativeNames m mem)
  have files : part Reader.install place entries "install" = good s.install :=
    part_written (fun inner i _ => Install.read_toData inner i) installed place
  unfold settings
  rw [bound, scriptModules, nativeModules, files]
  rfl

theorem Settings.read_platforms {r : Record Settings}
    (named : ∀ entry ∈ r.entries, entry.2.WellNamed) (place : Place) :
    platforms place (ofRecord (fun s => map s.toFields) r) = good r := by
  unfold platforms
  rw [entries?_ofRecord]
  refine collect_record (fun s : Settings => map s.toFields) fun entry mem => ?_
  obtain ⟨fields, found, only, given⟩ := exists_entries_present entry.2.fields
    settingsFields rfl (by decide)
  rw [← entry.2.toFields_eq] at found
  dsimp only
  rw [found]
  dsimp only
  rw [onlyFields_of_only only, read_fields (named entry mem) given]
  rfl

namespace Description

def fields (d : Description) : List (String × Option Data) :=
  [("package", some (.text d.package)), ("buildType", d.buildType.map .text),
   ("supportedPlatforms", d.supportedPlatforms.map texts),
   ("unsupportedPlatforms", d.unsupportedPlatforms.map texts), ("errors", d.errors.map texts),
   ("copyDirectories", d.copyDirectories.map texts),
   ("platforms", d.platforms.map (ofRecord fun s => map s.toFields))] ++ d.settings.fields

theorem toData_eq (d : Description) : d.toData = map (present d.fields) := by
  simp [toData, fields, present_some, present_part, Settings.toFields_eq]

theorem read_toData {d : Description} (named : d.WellNamed) : read d.toData = .ok d := by
  obtain ⟨package, shared, overrides⟩ := named
  obtain ⟨entries, found, only, given⟩ := exists_entries_present d.fields
    descriptionFields rfl (by decide)
  rw [← d.toData_eq] at found
  simp only [fields, List.forall_mem_append, List.forall_mem_cons] at given
  obtain ⟨⟨name, buildType, supported, unsupported, errors, copied, platforms, -⟩, settings⟩ := given
  have build : part text [] entries "buildType" = good d.buildType :=
    part_written (fun inner value _ => text_text inner value) buildType []
  have overridden : part Reader.platforms [] entries "platforms" = good d.platforms := by
    refine part_written (fun inner r own => Settings.read_platforms ?_ inner) platforms []
    rw [Description.overrides, own] at overrides
    exact overrides
  have reading : description entries = good d := by
    unfold description
    rw [onlyFields_of_only only, name, name_text package, build, part_texts supported,
      part_texts unsupported, part_texts errors, part_texts copied, overridden,
      Settings.read_fields shared settings]
    rfl
  rw [read_eq_ok found, reading]
  exact ⟨rfl, rfl⟩

/-- A description is read from what is written for it exactly if what it names has a name, and
exactly if it can be read from anything at all. -/
theorem read_toData_iff (d : Description) :
    (read d.toData = .ok d ↔ d.WellNamed) ∧ (read d.toData = .ok d ↔ ∃ raw, read raw = .ok d) := by
  have itself : read d.toData = .ok d ↔ d.WellNamed := ⟨wellNamed_of_read, read_toData⟩
  refine ⟨itself, fun reading => ⟨_, reading⟩, ?_⟩
  rintro ⟨raw, reading⟩
  exact itself.mpr (wellNamed_of_read reading)

end Description

end CMakeScript
