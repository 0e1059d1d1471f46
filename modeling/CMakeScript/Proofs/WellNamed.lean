import CMakeScript.Description.Reader
import CMakeScript.Proofs.Configured

/-!
# Names in descriptions

A description that has been read has names wherever a script needs one, and nothing else is known
about its texts: `wellNamed_of_read`.
-/

namespace CMakeScript

/-! ### Values of readings -/

namespace Checked

variable {α β : Type}

/-- Every value that the reading gives has the property. -/
def Yields (x : Checked α) (P : α → Prop) : Prop := ∀ a, x.value? = some a → P a

theorem Yields.good {P : α → Prop} {value : α} (h : P value) : (good value).Yields P := by
  intro a same
  cases same
  exact h

theorem Yields.bad {P : α → Prop} (place : Place) (fault : Fault) :
    (bad place fault : Checked α).Yields P := by
  intro a same
  cases same

theorem Yields.any (x : Checked α) : x.Yields fun _ => True := fun _ _ => trivial

theorem Yields.seq {f : Checked (α → β)} {x : Checked α} {P : α → Prop} {Q : β → Prop}
    (hf : f.Yields fun g => ∀ a, P a → Q (g a)) (hx : x.Yields P) : (f <*> x).Yields Q := by
  intro b same
  change (f.value? <*> x.value?) = some b at same
  obtain ⟨g, function, rest⟩ := Option.bind_eq_some_iff.mp same
  obtain ⟨a, value, rfl⟩ := Option.map_eq_some_iff.mp rest
  exact hf g function a (hx a value)

theorem Yields.map {x : Checked α} {P : α → Prop} {Q : β → Prop} {f : α → β} (hx : x.Yields P)
    (h : ∀ a, P a → Q (f a)) : (f <$> x).Yields Q :=
  Yields.seq (Yields.good h) hx

theorem Yields.seqRight {x : Checked α} {y : Checked β} {P : β → Prop} (hy : y.Yields P) :
    (x *> y).Yields P :=
  Yields.seq ((Yields.any x).map fun _ _ _ value => value) hy

theorem Yields.andThen {x : Checked α} {f : α → Checked β} {P : α → Prop} {Q : β → Prop}
    (hx : x.Yields P) (h : ∀ a, P a → (f a).Yields Q) : (x.andThen f).Yields Q := by
  intro b same
  unfold Checked.andThen at same
  split at same
  next a value => exact h a (hx a value) b same
  next => cases same

theorem Yields.collect {xs : List (Checked α)} {P : α → Prop} (h : ∀ x ∈ xs, x.Yields P) :
    (collect xs).Yields fun values => ∀ a ∈ values, P a := by
  intro values same
  cases same
  intro a mem
  obtain ⟨x, inside, value⟩ := List.mem_filterMap.mp mem
  exact h x inside a value

theorem Yields.optional {δ : Type} {read : δ → Checked α} {P : α → Prop}
    (h : ∀ d, (read d).Yields P) (part : Option δ) :
    (optional read part).Yields fun value => ∀ a, value = some a → P a := by
  cases part with
  | none => exact Yields.good fun a same => by cases same
  | some d => exact (h d).map fun a value b same => by cases same; exact value

end Checked

/-! ### Names that are read -/

theorem Record.mem_insertIndex {α : Type} {key : String} {n : Nat} {value : α}
    {entries : List (String × α)} {entry : String × α}
    (mem : entry ∈ insertIndex key n value entries) : entry ∈ entries ∨ entry = (key, value) := by
  induction entries with
  | nil => exact .inr (List.mem_singleton.mp mem)
  | cons first rest ih =>
    unfold insertIndex at mem
    split at mem
    · split at mem
      · rcases List.mem_cons.mp mem with rfl | later
        · exact .inl List.mem_cons_self
        · exact (ih later).imp_left (List.mem_cons_of_mem _)
      · exact (List.mem_cons.mp mem).symm
    · exact (List.mem_cons.mp mem).symm

theorem Record.mem_insert {α : Type} {entries : List (String × α)} {key : String} {value : α}
    {entry : String × α} (mem : entry ∈ insert entries key value) :
    entry ∈ entries ∨ entry = (key, value) := by
  unfold insert at mem
  split at mem
  · obtain ⟨old, inside, rfl⟩ := List.mem_map.mp mem
    split
    · exact .inr rfl
    · exact .inl inside
  · split at mem
    · exact mem_insertIndex mem
    · exact (List.mem_append.mp mem).imp_right List.mem_singleton.mp

theorem Record.mem_arrange {α : Type} {pairs : List (String × α)} {entry : String × α}
    (mem : entry ∈ arrange pairs) : entry ∈ pairs := by
  suffices ∀ entries : List (String × α),
      entry ∈ pairs.foldl (fun entries pair => insert entries pair.1 pair.2) entries →
      entry ∈ entries ∨ entry ∈ pairs from (this [] mem).resolve_left List.not_mem_nil
  clear mem
  induction pairs with
  | nil => exact fun entries mem => .inl mem
  | cons pair rest ih =>
    intro entries mem
    rcases ih _ mem with before | later
    · rcases mem_insert before with old | new
      · exact .inl old
      · exact .inr (new ▸ List.mem_cons_self)
    · exact .inr (List.mem_cons_of_mem _ later)

/-- What settings name has a name. -/
structure Settings.WellNamed (s : Settings) : Prop where
  bindings : ∀ entry ∈ s.variableList, isName entry.1 = true
  scripts : ∀ m ∈ s.scriptModules.getD [], isName m.name = true
  natives : ∀ m ∈ s.nativeModules.getD [], isName m.name = true

/-- What a description names has a name. -/
structure Description.WellNamed (d : Description) : Prop where
  package : isName d.package = true
  settings : d.settings.WellNamed
  overrides : ∀ entry ∈ d.overrides, entry.2.WellNamed

namespace Reader

open Checked

theorem yields_nameText (place : Place) (value : String) :
    (nameText place value).Yields fun name => isName name = true := by
  unfold nameText
  split
  next valid => exact .good valid
  next => exact .bad _ _

theorem yields_name (place : Place) (field : Option Data) :
    (name place field).Yields fun name => isName name = true := by
  cases field with
  | none => exact .bad _ _
  | some d => exact (Yields.any _).andThen fun value _ => yields_nameText place value

theorem yields_bindings (place : Place) (d : Data) :
    (bindings place d).Yields fun r => ∀ entry ∈ r.entries, isName entry.1 = true := by
  unfold bindings
  split
  next => exact .bad _ _
  next entries _ =>
    have named : (collect (entries.map fun entry => Prod.mk <$> nameText place entry.1 <*>
        value (place.key entry.1) entry.2)).Yields
          fun pairs => ∀ entry ∈ pairs, isName entry.1 = true := by
      refine .collect fun x mem => ?_
      obtain ⟨entry, -, rfl⟩ := List.mem_map.mp mem
      exact .seq ((yields_nameText place entry.1).map fun _ valid _ _ => valid) (.any _)
    exact named.map fun pairs names entry mem => names entry (Record.mem_arrange mem)

theorem yields_scriptModule (place : Place) (entries : List (String × Data)) :
    (scriptModule place entries).Yields fun m => isName m.name = true :=
  .seqRight (.seq ((yields_name _ _).map fun _ valid _ _ => valid) (.any _))

theorem yields_nativeModule (place : Place) (entries : List (String × Data)) :
    (nativeModule place entries).Yields fun m => isName m.name = true := by
  have base : (Prod.mk <$> name (place.key "name") (Data.field? entries "name") <*>
      sources place (Data.field? entries "sources")).Yields fun base => isName base.1 = true :=
    .seq ((yields_name _ _).map fun _ valid _ _ => valid) (.any _)
  refine .seqRight (base.andThen fun base valid => ?_)
  exact .seq (.seq (.seq ((Yields.any _).map fun _ _ _ _ _ _ _ _ => valid) (.any _)) (.any _))
    (.any _)

theorem yields_modules {α : Type} {read : Place → List (String × Data) → Checked α}
    {P : α → Prop} (h : ∀ place entries, (read place entries).Yields P) (place : Place)
    (d : Data) : (modules read place d).Yields fun ms => ∀ m ∈ ms, P m := by
  cases d with
  | list items =>
    refine .collect fun x mem => ?_
    obtain ⟨entry, -, rfl⟩ := List.mem_map.mp mem
    split
    next => exact .bad _ _
    next entries _ => exact h entry.1 entries
  | _ => exact .bad _ _

theorem yields_settings (place : Place) (entries : List (String × Data)) :
    (settings place entries).Yields Settings.WellNamed := by
  have bound : (part bindings place entries "variables").Yields fun r? =>
      ∀ r, r? = some r → ∀ entry ∈ r.entries, isName entry.1 = true :=
    .optional (fun d => yields_bindings _ d) _
  have scripts : (part (modules scriptModule) place entries "scriptModules").Yields fun ms? =>
      ∀ ms, ms? = some ms → ∀ m ∈ ms, isName m.name = true :=
    .optional (fun d => yields_modules yields_scriptModule _ d) _
  have natives : (part (modules nativeModule) place entries "nativeModules").Yields fun ms? =>
      ∀ ms, ms? = some ms → ∀ m ∈ ms, isName m.name = true :=
    .optional (fun d => yields_modules yields_nativeModule _ d) _
  refine .seq (.seq (.seq (bound.map ?_) scripts) natives) (.any _)
  intro bindings? hbound scripts? hscripts natives? hnatives install? _
  constructor
  · cases bindings? with
    | none => exact fun _ mem => absurd mem List.not_mem_nil
    | some r => exact hbound r rfl
  · cases scripts? with
    | none => exact fun _ mem => absurd mem List.not_mem_nil
    | some ms => exact hscripts ms rfl
  · cases natives? with
    | none => exact fun _ mem => absurd mem List.not_mem_nil
    | some ms => exact hnatives ms rfl

theorem yields_platforms (place : Place) (d : Data) :
    (platforms place d).Yields fun r => ∀ entry ∈ r.entries, entry.2.WellNamed := by
  unfold platforms
  split
  next => exact .bad _ _
  next entries _ =>
    refine Yields.map (.collect fun x mem => ?_)
      fun pairs named entry mem => named entry (Record.mem_arrange mem)
    obtain ⟨entry, -, rfl⟩ := List.mem_map.mp mem
    split
    next => exact .bad _ _
    next fields _ => exact .seqRight ((yields_settings _ _).map fun _ named => named)

theorem yields_description (entries : List (String × Data)) :
    (description entries).Yields Description.WellNamed := by
  have overrides : (part platforms [] entries "platforms").Yields fun r? =>
      ∀ r, r? = some r → ∀ entry ∈ r.entries, entry.2.WellNamed :=
    .optional (fun d => yields_platforms _ d) _
  refine .seqRight (.seq (.seq (.seq (.seq (.seq (.seq (.seq ((yields_name _ _).map ?_)
    (.any _)) (.any _)) (.any _)) (.any _)) (.any _)) overrides) (yields_settings _ _))
  intro package hpackage _ _ _ _ _ _ _ _ _ _ platforms? hplatforms settings hsettings
  refine ⟨hpackage, hsettings, ?_⟩
  cases platforms? with
  | none => exact fun _ mem => absurd mem List.not_mem_nil
  | some r => exact hplatforms r rfl

end Reader

/-- Everything that a description names after it has been read has a name. -/
theorem Description.wellNamed_of_read {raw : Data} {d : Description} (h : read raw = .ok d) :
    d.WellNamed := by
  unfold read at h
  split at h
  next => cases h
  next entries _ =>
    dsimp only at h
    split at h
    next read _ value =>
      cases h
      exact Reader.yields_description entries d value
    next => cases h

/-- Data that gives something that is made of a description has been read as this description. -/
theorem Description.exists_of_read {β : Type} {raw : Data} {f : Description → β} {b : β}
    (h : (read raw).toOption.map f = some b) : ∃ d, read raw = .ok d ∧ f d = b := by
  cases accepted : read raw with
  | error e => simp [accepted, Except.toOption] at h
  | ok d => exact ⟨d, rfl, by simpa [accepted, Except.toOption] using h⟩

/-! ### Names of what is bound and added -/

theorem eq_of_mem_listWrite {name : String} {items : List String} {binding : String × List String}
    (mem : binding ∈ listWrite name items) : binding.1 = name := by
  unfold listWrite at mem
  split at mem
  · exact absurd mem List.not_mem_nil
  · rw [List.mem_singleton.mp mem]

theorem isName_append {name suffix : String} (h : isName name = true)
    (hs : suffix.toList.all isNameChar = true) : isName (name ++ suffix) = true := by
  obtain ⟨filled, chars⟩ := Bool.and_eq_true_iff.mp h
  have nonempty : name ≠ "" := by simpa using filled
  rw [isName, Bool.and_eq_true, String.toList_append, List.all_append, chars, hs]
  exact ⟨by simp [nonempty], rfl⟩

theorem isName_lists {m : NativeModule} (h : isName m.name = true) :
    ∀ entry ∈ m.lists, isName entry.1 = true := by
  simp only [NativeModule.lists, List.forall_mem_cons]
  exact ⟨isName_append h (by decide), isName_append h (by decide), isName_append h (by decide),
    isName_append h (by decide), isName_append h (by decide), fun _ mem => by cases mem⟩

theorem Install.isName_lists (i : Install) : ∀ entry ∈ i.lists, isName entry.1 = true := by
  simp only [Install.lists, List.forall_mem_cons]
  exact ⟨by decide, by decide, by decide, by decide, fun _ mem => by cases mem⟩

theorem isName_ofList {bindings : List (String × List String)}
    (h : ∀ binding ∈ bindings, isName binding.1 = true) :
    ∀ binding ∈ (Table.ofList bindings).entries, isName binding.1 = true := by
  intro binding mem
  have key := Table.mem_keys_ofList (List.mem_map_of_mem mem)
  obtain ⟨write, inside, same⟩ := List.mem_map.mp key
  rw [← same]
  exact h write inside

namespace Settings.WellNamed

variable {s : Settings} (h : s.WellNamed)

include h

theorem isName_writes : ∀ binding ∈ s.writes, isName binding.1 = true := by
  intro binding mem
  simp only [Settings.writes, List.mem_append, List.mem_map, List.mem_flatMap] at mem
  rcases mem with ((⟨entry, inside, rfl⟩ | ⟨entry, inside, set⟩) | ⟨m, inside, set⟩) |
    ⟨m, inside, entry, listed, set⟩
  · exact h.bindings entry inside
  · rw [eq_of_mem_listWrite set]
    exact Install.isName_lists _ entry inside
  · rw [eq_of_mem_listWrite set]
    exact isName_append (h.scripts m inside) (by decide)
  · rw [eq_of_mem_listWrite set]
    exact isName_lists (h.natives m inside) entry listed

theorem isName_bound : ∀ binding ∈ s.bound, isName binding.1 = true :=
  isName_ofList h.isName_writes

theorem isName_scripts : ∀ name ∈ s.scriptNames, isName name = true := by
  intro name mem
  obtain ⟨m, inside, rfl⟩ := List.mem_map.mp mem
  exact h.scripts m inside

theorem isName_natives : ∀ name ∈ s.nativeNames, isName name = true := by
  intro name mem
  obtain ⟨m, inside, rfl⟩ := List.mem_map.mp mem
  exact h.natives m inside

end Settings.WellNamed

/-- What holds of the settings of all platforms holds of those of the known ones. -/
theorem Description.known_of_overrides {d : Description} {P : Settings → Prop}
    (h : ∀ entry ∈ d.overrides, P entry.2) : ∀ entry ∈ d.known, P entry.2 := by
  intro entry mem
  obtain ⟨override, inside, same⟩ := List.mem_filterMap.mp mem
  obtain ⟨p, -, rfl⟩ := Option.map_eq_some_iff.mp same
  exact h override inside

namespace Description.WellNamed

variable {d : Description} (h : d.WellNamed)

include h

theorem isName_bound : ∀ binding ∈ d.bound, isName binding.1 = true := by
  refine isName_ofList fun binding mem => ?_
  rcases List.mem_append.mp mem with set | copied
  · exact h.settings.isName_writes binding set
  · rw [eq_of_mem_listWrite copied]
    decide

theorem known : ∀ entry ∈ d.known, entry.2.WellNamed :=
  known_of_overrides h.overrides

end Description.WellNamed

end CMakeScript
