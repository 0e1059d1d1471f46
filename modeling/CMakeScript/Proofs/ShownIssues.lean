import CMakeScript.Proofs.Reading
import CMakeScript.Proofs.Violations

/-!
# What shows of data at a place

The issues that a part of a description is to be reported for, said for each kind of data: from the
items of a list (`showsAt_list`), from the entries of a mapping (`showsAt_fields`).
-/

namespace CMakeScript

namespace Data

variable {d part : Data} {entries : List (String × Data)}

theorem items?_eq_none (found : d.entries? = some entries) : d.items? = none := by
  cases d with
  | map pairs => rfl
  | _ => cases found

theorem part?_key (found : d.entries? = some entries) (key : String) :
    d.part? (.key key) = field? entries key := by
  rw [part?, found, Option.bind_some]

theorem part?_item (found : d.entries? = some entries) (index : Nat) :
    d.part? (.item index) = none := by
  rw [part?, items?_eq_none found, Option.bind_none]

end Data

namespace Shape

variable {shape inner : Shape} {d part : Data} {step : Step} {issue : Issue}

/-! ### Issues of data at a place -/

/-- What shows of the data, as issues of the whole in which the data has the place. -/
def ShowsAt (shape : Shape) (place : Place) (d : Data) (issue : Issue) : Prop :=
  ∃ own, shape.Shows d own ∧ issue = own.under place

variable {place : Place}

theorem showsAt_iff : shape.ShowsAt place d issue ↔
    (∃ own, Flaw shape d own ∧ issue = own.under place) ∨
    ∃ step inner part, shape.part? step = some inner ∧ d.part? step = some part ∧
      ¬shape.Skips d step ∧ inner.ShowsAt (place ++ [step]) part issue := by
  have nested (step : Step) (own : Issue) :
      (own.under [step]).under place = own.under (place ++ [step]) := by
    simp [Issue.under]
  constructor
  · rintro ⟨own, shown, rfl⟩
    rcases shows_iff.mp shown with
      flaw | ⟨step, inner, part, below, inside, there, taken, deep, rfl⟩
    · exact .inl ⟨own, flaw, rfl⟩
    · exact .inr ⟨step, inner, part, inside, there, taken, below, deep, nested step below⟩
  · rintro (⟨own, flaw, rfl⟩ | ⟨step, inner, part, inside, there, taken, below, deep, rfl⟩)
    · exact ⟨own, shows_of_flaw flaw, rfl⟩
    · refine ⟨below.under [step], shows_iff.mpr ?_, (nested step below).symm⟩
      exact .inr ⟨step, inner, part, below, inside, there, taken, deep, rfl⟩

theorem admits_iff_of_fields (has : shape.fields ≠ []) : shape.Admits d ↔ d.entries?.isSome := by
  cases shape <;> first | exact absurd rfl has | exact Iff.rfl

theorem admits_of_items (has : shape.itemPart?.isSome) (list : d.items?.isSome) :
    shape.Admits d := by
  cases shape with
  | texts | scriptModules | nativeModules => exact list
  | value => exact .inr (.inr list)
  | sources => exact .inr list
  | _ => cases has

/-- Only data of the right kind has parts that the schema speaks of. -/
theorem admits_of_part (inside : shape.part? step = some inner) (there : d.part? step = some part) :
    shape.Admits d := by
  cases step with
  | item index =>
    obtain ⟨items, list, -⟩ := Option.bind_eq_some_iff.mp there
    exact admits_of_items (Option.isSome_of_eq_some inside) (Option.isSome_of_eq_some list)
  | key key =>
    obtain ⟨entries, mapping, -⟩ := Option.bind_eq_some_iff.mp there
    have found : d.entries?.isSome := Option.isSome_of_eq_some mapping
    cases shape <;> first | exact found | cases inside

/-- Of data of a wrong kind there is nothing else to say. -/
theorem showsAt_of_not_admits (other : ¬shape.Admits d) :
    shape.ShowsAt place d issue ↔ issue = ⟨place, shape.wrongKind⟩ := by
  rw [showsAt_iff]
  constructor
  · rintro (⟨own, flaw, rfl⟩ | ⟨step, inner, part, inside, there, -⟩)
    · cases flaw with
      | wrongKind => simp [Issue.under]
      | invalidName => exact absurd ⟨_, rfl⟩ other
      | invalidKey found => exact absurd (Option.isSome_of_eq_some found) other
      | unknownField has found =>
        exact absurd ((admits_iff_of_fields has).mpr (Option.isSome_of_eq_some found)) other
      | missing found mem =>
        have has := List.ne_nil_of_mem mem
        exact absurd ((admits_iff_of_fields has).mpr (Option.isSome_of_eq_some found)) other
    · exact absurd (admits_of_part inside there) other
  · rintro rfl
    exact .inl ⟨_, .wrongKind other, by simp [Issue.under]⟩

theorem showsAt_name (value : String) : name.ShowsAt place (.text value) issue ↔
    isName value = false ∧ issue = ⟨place, .invalidName value⟩ := by
  rw [showsAt_iff]
  constructor
  · rintro (⟨own, flaw, rfl⟩ | ⟨step, inner, part, inside, -⟩)
    · cases flaw with
      | wrongKind other => exact absurd ⟨value, rfl⟩ other
      | invalidName invalid => exact ⟨invalid, by simp [Issue.under]⟩
      | unknownField has => exact absurd rfl has
      | missing _ mem => cases mem
    · cases step <;> cases inside
  · rintro ⟨invalid, rfl⟩
    exact .inl ⟨_, .invalidName invalid, by simp [Issue.under]⟩

/-- Data that is admitted and has no parts that the schema speaks of is as it should be. -/
theorem not_showsAt (admitted : shape.Admits d) (plain : shape ≠ name) (items : d.items? = none)
    (entries : d.entries? = none) : ¬shape.ShowsAt place d issue := by
  rw [showsAt_iff]
  rintro (⟨own, flaw, rfl⟩ | ⟨step, inner, part, inside, there, -⟩)
  · cases flaw with
    | wrongKind other => exact other admitted
    | invalidName => exact plain rfl
    | invalidKey found | unknownField _ found | missing found =>
      rw [entries] at found
      cases found
  · cases step with
    | item index =>
      simp [Data.part?, items] at there
    | key key =>
      simp [Data.part?, entries] at there

theorem showsAt_list (inside : shape.itemPart? = some inner) (items : List Data) :
    shape.ShowsAt place (.list items) issue ↔
      ∃ index part, items[index]? = some part ∧ inner.ShowsAt (place.item index) part issue := by
  have fieldless : shape.fields = [] := by
    cases shape <;> first | rfl | cases inside
  rw [showsAt_iff]
  constructor
  · rintro (⟨own, flaw, rfl⟩ | ⟨step, other, part, same, there, -, shown⟩)
    · cases flaw with
      | wrongKind other =>
        exact absurd (admits_of_items (Option.isSome_of_eq_some inside) rfl) other
      | invalidKey found => cases found
      | unknownField has => exact absurd fieldless has
      | missing found => cases found
    · cases step with
      | key key => cases there
      | item index =>
        cases inside.symm.trans same
        exact ⟨index, part, there, shown⟩
  · rintro ⟨index, part, there, shown⟩
    refine .inr ⟨.item index, inner, part, inside, there, fun skips => ?_, shown⟩
    simpa using skips.2.2

/-! ### Mappings -/

/-- What is wrong with a field: it is missing, or something shows of what it holds. -/
def ShowsIn (place : Place) (entries : List (String × Data)) (field : String × Shape)
    (issue : Issue) : Prop :=
  match Data.field? entries field.1 with
  | none => ∃ own, field.2.missing? field.1 = some own ∧ issue = own.under place
  | some part => field.2.ShowsAt (place.key field.1) part issue

theorem keyPart?_eq_some_iff (has : shape.fields ≠ []) {key : String} :
    shape.keyPart? key = some inner ↔ (key, inner) ∈ shape.fields := by
  have distinct : (shape.fields.map (·.1)).Nodup := by cases shape <;> decide
  rw [← Table.lookup_eq_some_iff distinct]
  cases shape <;> first | exact absurd rfl has | exact Iff.rfl

section Mapping

variable {entries : List (String × Data)} (found : d.entries? = some entries)
include found

theorem showsAt_entries (keyed : ∀ key, shape.keyPart? key = some inner) :
    shape.ShowsAt place d issue ↔
      (∃ own, Flaw shape d own ∧ issue = own.under place) ∨
      ∃ entry ∈ entries, inner.ShowsAt (place.key entry.1) entry.2 issue := by
  rw [showsAt_iff]
  refine or_congr_right ?_
  constructor
  · rintro ⟨step, other, part, same, there, -, shown⟩
    cases step with
    | item index =>
      rw [Data.part?_item found] at there
      cases there
    | key key =>
      cases (keyed key).symm.trans same
      rw [Data.part?_key found, Data.field?_eq_some_iff found] at there
      exact ⟨(key, part), there, shown⟩
  · rintro ⟨entry, mem, shown⟩
    refine ⟨.key entry.1, inner, entry.2, keyed entry.1, ?_, ?_, shown⟩
    · rw [Data.part?_key found, Data.field?_eq_some_iff found]
      exact mem
    · rintro ⟨rfl, -, -⟩
      cases keyed ""

theorem showsAt_bindings : bindings.ShowsAt place d issue ↔
    ∃ entry ∈ entries, isName entry.1 = false ∧ issue = ⟨place, .invalidName entry.1⟩ ∨
      value.ShowsAt (place.key entry.1) entry.2 issue := by
  have flaws : (∃ own, Flaw bindings d own ∧ issue = own.under place) ↔
      ∃ entry ∈ entries, isName entry.1 = false ∧ issue = ⟨place, .invalidName entry.1⟩ := by
    constructor
    · rintro ⟨own, flaw, rfl⟩
      cases flaw with
      | wrongKind other => exact absurd (Option.isSome_of_eq_some found) other
      | invalidKey same mem invalid =>
        cases found.symm.trans same
        exact ⟨_, mem, invalid, by simp [Issue.under]⟩
      | unknownField has => exact absurd rfl has
      | missing _ mem => cases mem
    · rintro ⟨entry, mem, invalid, rfl⟩
      exact ⟨_, .invalidKey found mem invalid, by simp [Issue.under]⟩
  have keyed (key : String) : bindings.keyPart? key = some value := rfl
  rw [showsAt_entries found keyed, flaws, ← exists_or]
  exact exists_congr fun entry => and_or_left.symm

theorem showsAt_platforms : platforms.ShowsAt place d issue ↔
    ∃ entry ∈ entries, overrides.ShowsAt (place.key entry.1) entry.2 issue := by
  have keyed (key : String) : platforms.keyPart? key = some overrides := rfl
  rw [showsAt_entries found keyed, or_iff_right]
  rintro ⟨own, flaw, rfl⟩
  cases flaw with
  | wrongKind other => exact other (Option.isSome_of_eq_some found)
  | unknownField has => exact has rfl
  | missing _ mem => cases mem

theorem showsAt_fields (has : shape.fields ≠ []) : shape.ShowsAt place d issue ↔
    (∃ entry ∈ entries, entry.1 ∉ shape.fields.map (·.1) ∧
      issue = ⟨place, .unknownField entry.1⟩) ∨
    ∃ field ∈ shape.fields, ¬shape.Skips d (.key field.1) ∧ ShowsIn place entries field issue := by
  rw [showsAt_iff]
  constructor
  · rintro (⟨own, flaw, rfl⟩ | ⟨step, inner, part, inside, there, taken, shown⟩)
    · cases flaw with
      | wrongKind other =>
        exact absurd ((admits_iff_of_fields has).mpr (Option.isSome_of_eq_some found)) other
      | invalidName => cases found
      | invalidKey => exact absurd rfl has
      | unknownField _ same mem unknown =>
        cases found.symm.trans same
        exact .inl ⟨_, mem, unknown, by simp [Issue.under]⟩
      | missing same mem absent flaw =>
        cases found.symm.trans same
        refine .inr ⟨_, mem, fun skips => ?_, ?_⟩
        · rw [skips.missing? mem] at flaw
          cases flaw
        · rw [ShowsIn, absent]
          exact ⟨own, flaw, rfl⟩
    · cases step with
      | item index =>
        rw [Data.part?_item found] at there
        cases there
      | key key =>
        rw [Data.part?_key found] at there
        refine .inr ⟨(key, inner), (keyPart?_eq_some_iff has).mp inside, taken, ?_⟩
        rw [ShowsIn, there]
        exact shown
  · rintro (⟨entry, mem, unknown, rfl⟩ | ⟨field, mem, taken, shown⟩)
    · exact .inl ⟨_, .unknownField has found mem unknown, by simp [Issue.under]⟩
    · unfold ShowsIn at shown
      split at shown
      next absent =>
        obtain ⟨own, flaw, rfl⟩ := shown
        exact .inl ⟨own, .missing found mem absent flaw, rfl⟩
      next part there =>
        exact .inr ⟨.key field.1, field.2, part, (keyPart?_eq_some_iff has).mpr mem,
          (Data.part?_key found field.1).trans there, taken, shown⟩

end Mapping

end Shape

end CMakeScript
