import CMakeScript.Description.Reader
import CMakeScript.Proofs.LastValue
import CMakeScript.Proofs.Schema
import Mathlib.Data.Set.List

/-!
# Descriptions are read exactly

A reading is exact if it has no issue exactly for the data of a shape, and if its value is then the
only one that holds what the data says. Readings that are put together of exact ones are exact:
`read_eq_ok_iff`.
-/

namespace CMakeScript

namespace Checked

variable {α β γ δ : Type}

/-- The reading has no issue exactly if `P` holds, and then its value is the only one with the
property. -/
structure Exactly (x : Checked α) (P : Prop) (R : α → Prop) : Prop where
  accepted : x.issues = [] ↔ P
  value : P → ∃ a, x.value? = some a ∧ ∀ b, R b ↔ b = a

theorem Exactly.good (value : α) {P : Prop} (h : P) {R : α → Prop} (only : ∀ a, R a ↔ a = value) :
    (good value).Exactly P R :=
  ⟨iff_of_true rfl h, fun _ => ⟨value, rfl, only⟩⟩

theorem Exactly.bad (place : Place) (fault : Fault) {P : Prop} (h : ¬P) (R : α → Prop) :
    (bad place fault).Exactly P R :=
  ⟨iff_of_false (List.cons_ne_nil _ _) h, fun holds => absurd holds h⟩

theorem Exactly.congr {x : Checked α} {P Q : Prop} {R S : α → Prop} (h : x.Exactly P R)
    (shape : P ↔ Q) (said : ∀ a, R a ↔ S a) : x.Exactly Q S := by
  refine ⟨h.accepted.trans shape, fun holds => ?_⟩
  obtain ⟨a, value, only⟩ := h.value (shape.mpr holds)
  exact ⟨a, value, fun b => (said b).symm.trans (only b)⟩

theorem Exactly.seq {f : Checked (α → β)} {x : Checked α} {P Q : Prop} {F : (α → β) → Prop}
    {R : α → Prop} (hf : f.Exactly P F) (hx : x.Exactly Q R) :
    (f <*> x).Exactly (P ∧ Q) fun b => ∃ g a, F g ∧ R a ∧ g a = b := by
  refine ⟨?_, fun ⟨hp, hq⟩ => ?_⟩
  · rw [← hf.accepted, ← hx.accepted]
    exact List.append_eq_nil_iff
  · obtain ⟨g, function, onlyF⟩ := hf.value hp
    obtain ⟨a, value, onlyR⟩ := hx.value hq
    refine ⟨g a, ?_, fun b => ?_⟩
    · change (f.value? <*> x.value?) = some (g a)
      rw [function, value]
      rfl
    · simp [onlyF, onlyR, eq_comm]

theorem Exactly.map {x : Checked α} {P : Prop} {R : α → Prop} (h : x.Exactly P R) (f : α → β) :
    (f <$> x).Exactly P fun b => ∃ a, R a ∧ f a = b := by
  have applied := (Exactly.good f trivial (P := True) fun _ => Iff.rfl).seq h
  exact applied.congr (by simp) (by simp)

theorem Exactly.seqRight {x : Checked Unit} {y : Checked β} {P Q : Prop} {R : β → Prop}
    (hx : x.Exactly P fun _ => True) (hy : y.Exactly Q R) : (x *> y).Exactly (P ∧ Q) R := by
  have applied := (hx.map fun _ : Unit => (id : β → β)).seq hy
  exact applied.congr Iff.rfl (by simp)

theorem Exactly.andThen {x : Checked α} {f : α → Checked β} {P : Prop} {Q : α → Prop}
    {R : α → Prop} {S : α → β → Prop} (hx : x.Exactly P R)
    (hf : ∀ a, R a → (f a).Exactly (Q a) (S a)) :
    (x.andThen f).Exactly (P ∧ ∀ a, R a → Q a) fun b => ∃ a, R a ∧ S a b := by
  unfold Checked.andThen
  constructor
  · cases found : x.value? with
    | none =>
      have rejected : ¬P := by
        intro holds
        obtain ⟨a, value, -⟩ := hx.value holds
        rw [found] at value
        cases value
      exact iff_of_false (mt hx.accepted.mp rejected) fun both => rejected both.1
    | some a =>
      change x.issues ++ (f a).issues = [] ↔ _
      rw [List.append_eq_nil_iff, hx.accepted]
      refine and_congr_right fun holds => ?_
      obtain ⟨b, value, only⟩ := hx.value holds
      rw [found] at value
      cases value
      rw [(hf a ((only a).mpr rfl)).accepted]
      simp [only]
  · rintro ⟨holds, next⟩
    obtain ⟨a, value, only⟩ := hx.value holds
    have own : R a := (only a).mpr rfl
    obtain ⟨b, result, onlyS⟩ := (hf a own).value (next a own)
    rw [value]
    exact ⟨b, result, fun c => by simp [only, onlyS]⟩

theorem Exactly.collect (read : δ → Checked α) {P : δ → Prop} {R : α → δ → Prop}
    (each : ∀ d, (read d).Exactly (P d) (R · d)) (items : List δ) :
    (collect (items.map read)).Exactly (∀ d ∈ items, P d) (List.Forall₂ R · items) := by
  induction items with
  | nil => exact .good [] (by simp) (by simp)
  | cons d rest ih =>
    obtain ⟨accepted, value⟩ := each d
    obtain ⟨others, values⟩ := ih
    constructor
    · rw [List.forall_mem_cons, ← accepted, ← others]
      exact List.append_eq_nil_iff
    · intro all
      obtain ⟨holds, later⟩ := List.forall_mem_cons.mp all
      obtain ⟨a, first, only⟩ := value holds
      obtain ⟨as, gathered, onlyRest⟩ := values later
      refine ⟨a :: as, ?_, fun bs => ?_⟩
      · change some ((read d :: rest.map read).filterMap (·.value?)) = _
        rw [List.filterMap_cons, first]
        exact congrArg (Option.map (a :: ·)) gathered
      · rw [List.forall₂_cons_right_iff]
        simp [only, onlyRest]

theorem Exactly.optional {read : δ → Checked α} {P : δ → Prop} {R : α → δ → Prop}
    (each : ∀ d, (read d).Exactly (P d) (R · d)) (field : Option δ) :
    (optional read field).Exactly (∀ d, field = some d → P d) (Option.Rel R · field) := by
  cases field with
  | none =>
    refine .good none (fun _ same => by cases same) fun a => ?_
    cases a <;> simp
  | some d =>
    refine ((each d).map some).congr (by simp) fun a => ?_
    cases a <;> simp

end Checked

theorem Place.map_items {δ : Type} (place : Place) (items : List δ) :
    (place.items items).map (·.2) = items := by
  simp [Place.items, Function.comp_def]

namespace Data

variable {d part : Data} {entries : List (String × Data)}

theorem ordered_of_entries? (h : d.entries? = some entries) : Record.Ordered entries := by
  cases d with
  | map pairs =>
    cases h
    exact Record.ordered_arrange pairs
  | _ => cases h

theorem field?_eq_lookup (entries : List (String × Data)) (name : String) :
    field? entries name = Table.lookup name entries := by
  induction entries with
  | nil => rfl
  | cons entry rest ih =>
    by_cases same : entry.1 = name
    · simp [field?, Table.lookup, same]
    · rw [Table.lookup, if_neg same, ← ih]
      simp [field?, same]

theorem field?_eq_some_iff (found : d.entries? = some entries) {name : String} :
    field? entries name = some part ↔ (name, part) ∈ entries := by
  have distinct : (entries.map (·.1)).Nodup :=
    (ordered_of_entries? found).imp Record.Precedes.ne
  rw [field?_eq_lookup, Table.lookup_eq_some_iff distinct]

end Data

namespace Checked

variable {α δ : Type}

/-- The items of a list, each read at its place. -/
theorem Exactly.items {read : Place × δ → Checked α} {P : δ → Prop} {R : α → δ → Prop}
    (each : ∀ entry, (read entry).Exactly (P entry.2) (R · entry.2)) (place : Place)
    (items : List δ) :
    (Checked.collect ((place.items items).map read)).Exactly
      (∀ d ∈ items, P d) (List.Forall₂ R · items) := by
  have placed := Exactly.collect read each (place.items items)
  refine placed.congr ?_ fun as => ?_
  · conv_rhs => rw [← place.map_items items]
    exact List.forall_mem_map.symm
  · conv_rhs => rw [← place.map_items items]
    exact List.forall₂_map_right_iff.symm

/-- A mapping, which data of another kind is not. -/
theorem Exactly.mapping {x : Checked α} {d : Data} {P : List (String × Data) → Prop}
    {R : α → List (String × Data) → Prop}
    (absent : d.entries? = none → ∃ place fault, x = Checked.bad place fault)
    (present : ∀ entries, d.entries? = some entries → x.Exactly (P entries) (R · entries)) :
    x.Exactly (d.IsMap P) (HoldsEntries R · d) := by
  cases found : d.entries? with
  | none =>
    obtain ⟨place, fault, rfl⟩ := absent found
    refine .bad place fault ?_ _
    rintro ⟨entries, same, -⟩
    rw [found] at same
    cases same
  | some entries =>
    refine (present entries found).congr ?_ fun a => ?_
    · simp [Data.IsMap, found]
    · simp [HoldsEntries, found]

/-- The entries of a mapping are read in order and keep their keys, so none of them is lost or
moved in the record. -/
theorem Exactly.record {entries : List (String × Data)} (ordered : Record.Ordered entries)
    {read : String × Data → Checked (String × α)} {P : String × Data → Prop} {R : α → Data → Prop}
    (each : ∀ entry, (read entry).Exactly (P entry) fun own => own.1 = entry.1 ∧ R own.2 entry.2) :
    (Record.ofList <$> Checked.collect (entries.map read)).Exactly (∀ entry ∈ entries, P entry)
      fun r => List.Forall₂ (fun own entry => own.1 = entry.1 ∧ R own.2 entry.2)
        r.entries entries := by
  have gathered := Exactly.collect read each entries
  refine (gathered.map Record.ofList).congr Iff.rfl fun r => ?_
  constructor
  · rintro ⟨pairs, said, rfl⟩
    have keys : pairs.map (·.1) = entries.map (·.1) := by
      have same : List.Forall₂ (fun own entry => own.1 = entry.1) pairs entries :=
        said.imp fun _ _ both => both.1
      rwa [← List.forall₂_eq_eq_eq, List.forall₂_map_left_iff, List.forall₂_map_right_iff]
    have kept : Record.Ordered pairs := by
      unfold Record.Ordered at ordered ⊢
      rwa [keys]
    change List.Forall₂ _ (Record.arrange pairs) entries
    rwa [Record.arrange_of_ordered kept]
  · intro said
    exact ⟨r.entries, said, Record.ofList_entries r⟩

end Checked

namespace Reader

open Checked

theorem exactly_onlyFields (place : Place) (fields : List String)
    (entries : List (String × Data)) :
    (onlyFields place fields entries).Exactly (Only entries fields) fun _ => True := by
  refine ⟨?_, fun _ => ⟨(), rfl, by simp⟩⟩
  simp [onlyFields, Only]

theorem exactly_text (place : Place) (d : Data) :
    (text place d).Exactly d.IsText (HoldsText · d) := by
  cases d with
  | text value => exact .good value ⟨value, rfl⟩ fun a => by simp [HoldsText, eq_comm]
  | _ => exact .bad _ _ (by simp [Data.IsText]) _

theorem exactly_nameText (place : Place) (value : String) :
    (nameText place value).Exactly (isName value = true) (· = value) := by
  unfold nameText
  split
  next valid => exact .good value valid fun _ => Iff.rfl
  next invalid => exact .bad _ _ invalid _

theorem exactly_name (place : Place) (entries : List (String × Data)) (field : String) :
    (name place (Data.field? entries field)).Exactly (Has entries field Data.IsName)
      fun value => Has entries field (HoldsText value) := by
  unfold Has
  cases Data.field? entries field with
  | none => exact .bad _ _ (by simp) _
  | some d =>
    have checked := (exactly_text place d).andThen fun value _ => exactly_nameText place value
    refine checked.congr ?_ fun value => ?_
    · constructor
      · rintro ⟨⟨value, rfl⟩, valid⟩
        exact ⟨_, rfl, value, rfl, valid value rfl⟩
      · rintro ⟨_, found, value, rfl, valid⟩
        cases found
        refine ⟨⟨value, rfl⟩, fun other same => ?_⟩
        cases same
        exact valid
    · simp

theorem forall₂_text {values : List String} {items : List Data} :
    List.Forall₂ HoldsText values items ↔ items = values.map .text := by
  induction values generalizing items with
  | nil => exact List.forall₂_nil_left_iff
  | cons value rest ih =>
    rw [List.forall₂_cons_left_iff]
    simp [HoldsText, ih]

theorem exactly_textItems (place : Place) (items : List Data) :
    (textItems place items).Exactly (Data.list items).IsTexts (HoldsTexts · (.list items)) := by
  have texts := Exactly.items (fun entry => exactly_text entry.1 entry.2) place items
  refine texts.congr ?_ fun values => ?_
  · have range := Set.ext_iff.mp (Set.range_list_map Data.text) items
    simpa [Data.IsTexts, Data.IsText, Data.texts, eq_comm] using range.symm
  · rw [forall₂_text, HoldsTexts, Data.texts, Data.list.injEq]

theorem exactly_textList (place : Place) (d : Data) :
    (textList place d).Exactly d.IsTexts (HoldsTexts · d) := by
  cases d with
  | list items => exact exactly_textItems place items
  | _ => exact .bad _ _ (by simp [Data.IsTexts, Data.texts]) _

theorem exactly_value (place : Place) (d : Data) :
    (value place d).Exactly d.IsValue (Value.Holds · d) := by
  cases d with
  | list items =>
    refine ((exactly_textItems place items).map Value.list).congr ?_ fun v => ?_
    · simp [Data.IsValue, Data.IsText]
    · cases v <;> simp [Value.Holds]
  | null =>
    refine .good _ (by simp [Data.IsValue]) fun v => ?_
    cases v <;> simp [Value.Holds, HoldsTexts, Data.texts]
  | text value =>
    refine ((exactly_text place (.text value)).map Value.text).congr ?_ fun v => ?_
    · simp [Data.IsValue, Data.IsTexts, Data.texts]
    · cases v <;> simp [Value.Holds, HoldsText, HoldsTexts, Data.texts]
  | _ =>
    refine ((exactly_text place _).map Value.text).congr ?_ fun v => ?_
    · simp [Data.IsValue, Data.IsText, Data.IsTexts, Data.texts]
    · cases v <;> simp [Value.Holds, HoldsText, HoldsTexts, Data.texts]

theorem exactly_part {α : Type} {read : Place → Data → Checked α} {P : Data → Prop}
    {R : α → Data → Prop} (each : ∀ place d, (read place d).Exactly (P d) (R · d)) (place : Place)
    (entries : List (String × Data)) (field : String) :
    (part read place entries field).Exactly (May entries field P)
      (HoldsField entries field R) :=
  .optional (each (place.key field)) (Data.field? entries field)

theorem exactly_bindings (place : Place) (d : Data) :
    (bindings place d).Exactly (d.IsMap AreBindings) (HoldsMap Value.Holds · d) := by
  unfold bindings
  refine .mapping (fun absent => ⟨place, .notVariables, by rw [absent]⟩) fun entries found => ?_
  rw [found]
  refine Exactly.record (Data.ordered_of_entries? found) fun entry => ?_
  refine (((exactly_nameText place entry.1).map Prod.mk).seq
    (exactly_value (place.key entry.1) entry.2)).congr Iff.rfl fun own => ?_
  constructor
  · rintro ⟨_, v, ⟨_, rfl, rfl⟩, said, rfl⟩
    exact ⟨rfl, said⟩
  · rintro ⟨same, said⟩
    exact ⟨_, own.2, ⟨own.1, same, rfl⟩, said, rfl⟩

theorem exactly_sources (place : Place) (entries : List (String × Data)) :
    (sources place (Data.field? entries "sources")).Exactly
      (Has entries "sources" Data.IsSources)
      fun items => Has entries "sources" (HoldsSources items) := by
  unfold Has
  cases Data.field? entries "sources" with
  | none => exact .bad _ _ (by simp) _
  | some d =>
    by_cases single : d.IsText
    · obtain ⟨source, rfl⟩ := single
      refine .good [source] (by simp [Data.IsSources, Data.IsText]) fun items => ?_
      simp [HoldsSources, HoldsTexts, Data.texts]
    · have read : sources place (some d) = textList (place.key "sources") d := by
        cases d with
        | text source => exact absurd ⟨source, rfl⟩ single
        | _ => rfl
      have other (source : String) : d ≠ .text source := fun same => single ⟨source, same⟩
      rw [read]
      refine (exactly_textList (place.key "sources") d).congr ?_ fun items => ?_
      · simp [Data.IsSources, single]
      · simp [HoldsSources, other]

theorem exactly_scriptModule (place : Place) (entries : List (String × Data)) :
    (scriptModule place entries).Exactly (IsScriptModule entries)
      (ScriptModule.Holds · entries) := by
  have parts := (exactly_onlyFields place ["name", "sources"] entries).seqRight
    (((exactly_name (place.key "name") entries "name").map ScriptModule.mk).seq
      (exactly_sources place entries))
  refine parts.congr ?_ fun m => ?_
  · exact ⟨fun ⟨only, name, sources⟩ => ⟨only, name, sources⟩,
      fun ⟨only, name, sources⟩ => ⟨only, name, sources⟩⟩
  · constructor
    · rintro ⟨_, items, ⟨value, name, rfl⟩, sources, rfl⟩
      exact ⟨name, sources⟩
    · rintro ⟨name, sources⟩
      exact ⟨_, _, ⟨_, name, rfl⟩, sources, rfl⟩

theorem exactly_nativeModule (place : Place) (entries : List (String × Data)) :
    (nativeModule place entries).Exactly (IsNativeModule entries)
      (NativeModule.Holds · entries) := by
  have base := ((exactly_name (place.key "name") entries "name").map Prod.mk).seq
    (exactly_sources place entries)
  have lists (m : String × List String) := ((((exactly_part exactly_textList place entries
    "libraries").map (NativeModule.mk m.1 m.2)).seq
    (exactly_part exactly_textList place entries "libdirs")).seq
    (exactly_part exactly_textList place entries "incdirs")).seq
    (exactly_part exactly_textList place entries "defines")
  have parts := (exactly_onlyFields place
    ["name", "sources", "libraries", "libdirs", "incdirs", "defines"] entries).seqRight
    (base.andThen fun m _ => lists m)
  refine parts.congr ?_ fun m => ?_
  · constructor
    · rintro ⟨only, ⟨name, sources⟩, rest⟩
      -- The other lists are read once there is a module to which they belong.
      obtain ⟨m, -, own⟩ := base.value ⟨name, sources⟩
      obtain ⟨⟨⟨libraries, libdirs⟩, incdirs⟩, defines⟩ := rest m ((own m).mpr rfl)
      exact ⟨only, name, sources, libraries, libdirs, incdirs, defines⟩
    · rintro ⟨only, name, sources, libraries, libdirs, incdirs, defines⟩
      exact ⟨only, ⟨name, sources⟩, fun _ _ => ⟨⟨⟨libraries, libdirs⟩, incdirs⟩, defines⟩⟩
  · constructor
    · rintro ⟨_, ⟨_, _, ⟨_, name, rfl⟩, sources, rfl⟩,
        _, _, ⟨_, _, ⟨_, _, ⟨_, libraries, rfl⟩, libdirs, rfl⟩, incdirs, rfl⟩, defines, rfl⟩
      exact ⟨name, sources, libraries, libdirs, incdirs, defines⟩
    · rintro ⟨name, sources, libraries, libdirs, incdirs, defines⟩
      exact ⟨(m.name, m.sources), ⟨_, _, ⟨_, name, rfl⟩, sources, rfl⟩,
        _, _, ⟨_, _, ⟨_, _, ⟨_, libraries, rfl⟩, libdirs, rfl⟩, incdirs, rfl⟩, defines, rfl⟩

theorem exactly_modules {α : Type} {read : Place → List (String × Data) → Checked α}
    {P : List (String × Data) → Prop} {R : α → List (String × Data) → Prop}
    (each : ∀ place entries, (read place entries).Exactly (P entries) (R · entries))
    (place : Place) (d : Data) :
    (modules read place d).Exactly (d.IsMapList P) (HoldsMapList R · d) := by
  cases d with
  | list items =>
    refine (Exactly.items (P := Data.IsMap P) (R := HoldsEntries R) (fun entry => ?_)
      place items).congr ?_ fun values => ?_
    · refine .mapping (fun absent => ⟨entry.1, .notModule, by rw [absent]⟩) fun entries found => ?_
      rw [found]
      exact each entry.1 entries
    · simp [Data.IsMapList]
    · simp [HoldsMapList]
  | _ => exact .bad _ _ (by simp [Data.IsMapList]) _

theorem exactly_install (place : Place) (d : Data) :
    (install place d).Exactly (d.IsMap IsInstall) (HoldsEntries Install.Holds · d) := by
  unfold install
  refine .mapping (fun absent => ⟨place, .notMapping, by rw [absent]⟩) fun entries found => ?_
  rw [found]
  have parts := (exactly_onlyFields place ["lua", "lib", "conf", "bin"] entries).seqRight
    (((((exactly_part exactly_textList place entries "lua").map Install.mk).seq
      (exactly_part exactly_textList place entries "lib")).seq
      (exactly_part exactly_textList place entries "conf")).seq
      (exactly_part exactly_textList place entries "bin"))
  refine parts.congr ?_ fun i => ?_
  · exact ⟨fun ⟨only, ⟨⟨lua, lib⟩, conf⟩, bin⟩ => ⟨only, lua, lib, conf, bin⟩,
      fun ⟨only, lua, lib, conf, bin⟩ => ⟨only, ⟨⟨lua, lib⟩, conf⟩, bin⟩⟩
  · constructor
    · rintro ⟨_, _, ⟨_, _, ⟨_, _, ⟨_, lua, rfl⟩, lib, rfl⟩, conf, rfl⟩, bin, rfl⟩
      exact ⟨lua, lib, conf, bin⟩
    · rintro ⟨lua, lib, conf, bin⟩
      exact ⟨_, _, ⟨_, _, ⟨_, _, ⟨_, lua, rfl⟩, lib, rfl⟩, conf, rfl⟩, bin, rfl⟩

theorem exactly_settings (place : Place) (entries : List (String × Data)) :
    (settings place entries).Exactly (AreSettings entries) (Settings.Holds · entries) := by
  have parts := ((((exactly_part exactly_bindings place entries "variables").map Settings.mk).seq
    (exactly_part (exactly_modules exactly_scriptModule) place entries "scriptModules")).seq
    (exactly_part (exactly_modules exactly_nativeModule) place entries "nativeModules")).seq
    (exactly_part exactly_install place entries "install")
  refine parts.congr ?_ fun s => ?_
  · exact ⟨fun ⟨⟨⟨bindings, scripts⟩, natives⟩, install⟩ => ⟨bindings, scripts, natives, install⟩,
      fun ⟨bindings, scripts, natives, install⟩ => ⟨⟨⟨bindings, scripts⟩, natives⟩, install⟩⟩
  · constructor
    · rintro ⟨_, _, ⟨_, _, ⟨_, _, ⟨_, bindings, rfl⟩, scripts, rfl⟩, natives, rfl⟩, install, rfl⟩
      exact ⟨bindings, scripts, natives, install⟩
    · rintro ⟨bindings, scripts, natives, install⟩
      exact ⟨_, _, ⟨_, _, ⟨_, _, ⟨_, bindings, rfl⟩, scripts, rfl⟩, natives, rfl⟩, install, rfl⟩

theorem exactly_platforms (place : Place) (d : Data) :
    (platforms place d).Exactly
      (d.IsMap fun overrides => ∀ entry ∈ overrides, entry.2.IsMap AreOverrides)
      (HoldsMap (HoldsEntries Settings.Holds) · d) := by
  unfold platforms
  refine .mapping (fun absent => ⟨place, .notPlatforms, by rw [absent]⟩) fun entries found => ?_
  rw [found]
  refine Exactly.record (Data.ordered_of_entries? found) fun entry => ?_
  refine (Exactly.mapping (P := AreOverrides)
    (R := fun (own : String × Settings) fields => own.1 = entry.1 ∧ own.2.Holds fields)
    (fun absent => ⟨place.key entry.1, .notMapping, by rw [absent]⟩) fun fields inner => ?_).congr
    Iff.rfl fun own => ?_
  · rw [inner]
    have parts := (exactly_onlyFields (place.key entry.1) settingsFields fields).seqRight
      ((exactly_settings (place.key entry.1) fields).map (Prod.mk entry.1))
    refine parts.congr Iff.rfl fun own => ?_
    constructor
    · rintro ⟨s, said, rfl⟩
      exact ⟨rfl, said⟩
    · rintro ⟨same, said⟩
      exact ⟨own.2, said, by rw [← same]⟩
  · simp [HoldsEntries, and_left_comm]

theorem exactly_description (entries : List (String × Data)) :
    (description entries).Exactly (AreDescription entries) (Description.HoldsFields · entries) := by
  have package := (exactly_name [.key "package"] entries "package").map
    fun package buildType supported unsupported errors directories overrides shared =>
      Description.mk package buildType supported unsupported errors directories shared overrides
  have build := package.seq (exactly_part exactly_text [] entries "buildType")
  have lists := (((build.seq (exactly_part exactly_textList [] entries "supportedPlatforms")).seq
    (exactly_part exactly_textList [] entries "unsupportedPlatforms")).seq
    (exactly_part exactly_textList [] entries "errors")).seq
    (exactly_part exactly_textList [] entries "copyDirectories")
  have parts := (exactly_onlyFields [] descriptionFields entries).seqRight
    ((lists.seq (exactly_part exactly_platforms [] entries "platforms")).seq
      (exactly_settings [] entries))
  refine parts.congr ?_ fun d => ?_
  · exact ⟨fun ⟨only, ⟨⟨⟨⟨⟨⟨package, build⟩, supported⟩, unsupported⟩, errors⟩, copied⟩, platforms⟩,
        settings⟩ =>
        ⟨only, package, build, supported, unsupported, errors, copied, platforms, settings⟩,
      fun ⟨only, package, build, supported, unsupported, errors, copied, platforms, settings⟩ =>
        ⟨only, ⟨⟨⟨⟨⟨⟨package, build⟩, supported⟩, unsupported⟩, errors⟩, copied⟩, platforms⟩,
          settings⟩⟩
  · constructor
    · rintro ⟨_, _, ⟨_, _, ⟨_, _, ⟨_, _, ⟨_, _, ⟨_, _, ⟨_, _, ⟨_, package, rfl⟩, build, rfl⟩,
        supported, rfl⟩, unsupported, rfl⟩, errors, rfl⟩, copied, rfl⟩, platforms, rfl⟩, settings,
        rfl⟩
      exact ⟨package, build, supported, unsupported, errors, copied, platforms, settings⟩
    · rintro ⟨package, build, supported, unsupported, errors, copied, platforms, settings⟩
      exact ⟨_, _, ⟨_, _, ⟨_, _, ⟨_, _, ⟨_, _, ⟨_, _, ⟨_, _, ⟨_, package, rfl⟩, build, rfl⟩,
        supported, rfl⟩, unsupported, rfl⟩, errors, rfl⟩, copied, rfl⟩, platforms, rfl⟩, settings,
        rfl⟩

end Reader

namespace Description

theorem read_eq_ok {raw : Data} {entries : List (String × Data)}
    (found : raw.entries? = some entries) (d : Description) : read raw = .ok d ↔
      (Reader.description entries).issues = [] ∧ (Reader.description entries).value? = some d := by
  unfold read
  rw [found]
  dsimp only
  split
  next silent value => simp [silent, value]
  next rejected =>
    refine iff_of_false (by simp) fun ⟨silent, value⟩ => ?_
    exact rejected d silent value

/-- Data is read as a description exactly if it has the shape of one, and as the description that
holds what the data says. -/
theorem read_eq_ok_iff (raw : Data) :
    ((∃ d, read raw = .ok d) ↔ raw.IsDescription) ∧
      ∀ d, read raw = .ok d ↔ raw.IsDescription ∧ d.Holds raw := by
  cases found : raw.entries? with
  | none =>
    have rejected : ¬raw.IsDescription := by simp [Data.IsDescription, Data.IsMap, found]
    have error (d : Description) : read raw ≠ .ok d := by simp [read, found]
    simp [rejected, error]
  | some entries =>
    have shape : raw.IsDescription ↔ AreDescription entries := by
      simp [Data.IsDescription, Data.IsMap, found]
    have said (d : Description) : d.Holds raw ↔ d.HoldsFields entries := by
      simp [Holds, HoldsEntries, found]
    obtain ⟨accepted, value⟩ := Reader.exactly_description entries
    simp only [read_eq_ok found, shape, said, accepted]
    refine ⟨⟨fun ⟨d, holds, _⟩ => holds, fun holds => ?_⟩, fun d => and_congr_right fun holds => ?_⟩
    · obtain ⟨d, read, -⟩ := value holds
      exact ⟨d, holds, read⟩
    · obtain ⟨own, read, only⟩ := value holds
      rw [read, only, Option.some.injEq, eq_comm]

end Description

end CMakeScript
