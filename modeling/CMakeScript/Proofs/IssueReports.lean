import CMakeScript.Proofs.ShownIssues

/-!
# Issues that are reported

A reading of data finds the violations of the schema, all of them at once, but for those that are
passed over: `violation_reported_iff`.
-/

namespace CMakeScript

open Shape

namespace Checked

variable {α β δ : Type}

/-- The issues of the reading are those with the property. -/
def Finds (x : Checked α) (V : Issue → Prop) : Prop := ∀ issue, issue ∈ x.issues ↔ V issue

variable {x : Checked α} {V W : Issue → Prop}

theorem Finds.congr (h : x.Finds V) (same : ∀ issue, V issue ↔ W issue) : x.Finds W :=
  fun issue => (h issue).trans (same issue)

theorem Finds.good (value : α) (none : ∀ issue, ¬V issue) : (good value).Finds V :=
  fun issue => iff_of_false List.not_mem_nil (none issue)

theorem Finds.bad {place : Place} {fault : Fault}
    (only : ∀ issue, V issue ↔ issue = ⟨place, fault⟩) : (bad place fault : Checked α).Finds V :=
  fun issue => List.mem_singleton.trans (only issue).symm

theorem Finds.seq {f : Checked (α → β)} (hf : f.Finds V) (hx : x.Finds W) :
    (f <*> x).Finds fun issue => V issue ∨ W issue :=
  fun issue => List.mem_append.trans (or_congr (hf issue) (hx issue))

theorem Finds.map (h : x.Finds V) (f : α → β) : (f <$> x).Finds V := h

theorem Finds.seqRight {x : Checked Unit} {y : Checked β} (hx : x.Finds V) (hy : y.Finds W) :
    (x *> y).Finds fun issue => V issue ∨ W issue :=
  Finds.seq (hx.map fun _ => id) hy

/-- What the second reading finds is found only if the first one has a value. -/
theorem Finds.andThen {f : α → Checked β} {P : Prop} (hx : x.Finds V) (given : x.value?.isSome ↔ P)
    (hf : ∀ a, (f a).Finds W) : (x.andThen f).Finds fun issue => V issue ∨ P ∧ W issue := by
  intro issue
  unfold Checked.andThen
  cases value : x.value? with
  | none =>
    have absent : ¬P := fun holds => by simpa [value] using given.mpr holds
    simpa [absent] using hx issue
  | some a =>
    have present : P := given.mp (by rw [value]; rfl)
    have both := List.mem_append.trans (or_congr (hx issue) (hf a issue))
    simpa [present] using both

theorem Finds.collect {read : δ → Checked α} {V : δ → Issue → Prop}
    (each : ∀ d, (read d).Finds (V d)) (items : List δ) :
    (collect (items.map read)).Finds fun issue => ∃ d ∈ items, V d issue := by
  intro issue
  change issue ∈ (items.map read).flatMap (·.issues) ↔ _
  rw [List.flatMap_map, List.mem_flatMap]
  exact exists_congr fun d => and_congr_right fun _ => each d issue

/-- The items of a list, each read at its place. -/
theorem Finds.items {shape inner : Shape} (inside : shape.itemPart? = some inner)
    {read : Place × Data → Checked α}
    (each : ∀ entry, (read entry).Finds (inner.ShowsAt entry.1 entry.2)) (place : Place)
    (items : List Data) :
    (Checked.collect ((place.items items).map read)).Finds (shape.ShowsAt place (.list items)) := by
  refine (Finds.collect each (place.items items)).congr fun issue => ?_
  rw [showsAt_list inside]
  constructor
  · rintro ⟨entry, mem, shown⟩
    obtain ⟨numbered, listed, rfl⟩ := List.mem_map.mp mem
    exact ⟨numbered.2, numbered.1, List.mem_zipIdx_iff_getElem?.mp listed, shown⟩
  · rintro ⟨index, part, there, shown⟩
    exact ⟨(place.item index, part),
      List.mem_map.mpr ⟨(part, index), List.mem_zipIdx_iff_getElem?.mpr there, rfl⟩, shown⟩

/-- A mapping, which data of another kind is not. -/
theorem Finds.mapping {shape : Shape} {place : Place} {d : Data}
    (absent : d.entries? = none → ¬shape.Admits d ∧ x = .bad place shape.wrongKind)
    (present : ∀ entries, d.entries? = some entries → x.Finds (shape.ShowsAt place d)) :
    x.Finds (shape.ShowsAt place d) := by
  cases found : d.entries? with
  | none =>
    obtain ⟨other, rfl⟩ := absent found
    exact .bad fun issue => showsAt_of_not_admits other
  | some entries => exact present entries found

/-- What is read of a mapping are the given fields. -/
def FindsIn (x : Checked α) (place : Place) (entries : List (String × Data))
    (fields : List (String × Shape)) : Prop :=
  x.Finds fun issue => ∃ field ∈ fields, ShowsIn place entries field issue

section Fields

variable {place : Place} {entries : List (String × Data)} {front back : List (String × Shape)}

theorem FindsIn.single {field : String × Shape} (h : x.Finds (ShowsIn place entries field)) :
    x.FindsIn place entries [field] :=
  h.congr fun issue => by simp

theorem FindsIn.map (h : x.FindsIn place entries front) (f : α → β) :
    (f <$> x).FindsIn place entries front := h

theorem FindsIn.seq {f : Checked (α → β)} (hf : f.FindsIn place entries front)
    (hx : x.FindsIn place entries back) : (f <*> x).FindsIn place entries (front ++ back) :=
  (Finds.seq hf hx).congr fun issue => by simp only [List.mem_append, or_and_right, exists_or]

end Fields

end Checked

namespace Reader

open Checked

theorem finds_onlyFields (place : Place) (fields : List String) (entries : List (String × Data)) :
    (onlyFields place fields entries).Finds fun issue =>
      ∃ entry ∈ entries, entry.1 ∉ fields ∧ issue = ⟨place, .unknownField entry.1⟩ := by
  intro issue
  simp only [onlyFields, List.mem_map, List.mem_filter, Bool.not_eq_true', List.contains_eq_mem,
    decide_eq_false_iff_not, and_assoc]
  exact exists_congr fun entry => and_congr_right fun _ => and_congr_right fun _ => eq_comm

theorem finds_text (place : Place) (d : Data) :
    (text place d).Finds (Shape.text.ShowsAt place d) := by
  cases d with
  | text value => exact .good value fun issue => not_showsAt ⟨value, rfl⟩ (by decide) rfl rfl
  | _ => exact .bad fun issue => showsAt_of_not_admits (by simp [Shape.Admits, Data.IsText])

theorem finds_nameText (place : Place) (value : String) :
    (nameText place value).Finds fun issue =>
      isName value = false ∧ issue = ⟨place, .invalidName value⟩ := by
  unfold nameText
  split
  next valid => exact .good value fun issue both => by simp [valid] at both
  next invalid => exact .bad fun issue => and_iff_right (by simpa using invalid)

theorem finds_name (place : Place) (entries : List (String × Data)) (field : String) :
    (name (place.key field) (Data.field? entries field)).FindsIn place entries
      [(field, .name)] := by
  refine .single ?_
  unfold ShowsIn
  cases Data.field? entries field with
  | none => exact .bad fun issue => by simp [Shape.missing?, Issue.under, Place.key]
  | some d =>
    cases d with
    | text value =>
      exact (finds_nameText (place.key field) value).congr fun issue => (showsAt_name value).symm
    | _ => exact .bad fun issue => showsAt_of_not_admits (by simp [Shape.Admits, Data.IsText])

theorem finds_textItems {shape : Shape} (inside : shape.itemPart? = some .text) (place : Place)
    (items : List Data) :
    (textItems place items).Finds (shape.ShowsAt place (.list items)) :=
  Finds.items inside (fun entry => finds_text entry.1 entry.2) place items

theorem finds_textList (place : Place) (d : Data) :
    (textList place d).Finds (Shape.texts.ShowsAt place d) := by
  cases d with
  | list items => exact finds_textItems rfl place items
  | _ => exact .bad fun issue => showsAt_of_not_admits (by simp [Shape.Admits, Data.items?])

theorem finds_value (place : Place) (d : Data) :
    (value place d).Finds (Shape.value.ShowsAt place d) := by
  cases d with
  | list items => exact (finds_textItems rfl place items).map Value.list
  | null => exact .good _ fun issue => not_showsAt (.inr (.inl rfl)) (by decide) rfl rfl
  | text value => exact .good _ fun issue => not_showsAt (.inl ⟨value, rfl⟩) (by decide) rfl rfl
  | _ =>
    exact .bad fun issue => showsAt_of_not_admits (by simp [Shape.Admits, Data.IsText, Data.items?])

theorem finds_part {α : Type} {read : Place → Data → Checked α} {shape : Shape}
    (each : ∀ place d, (read place d).Finds (shape.ShowsAt place d)) (place : Place)
    (entries : List (String × Data)) (field : String) (optional : shape.missing? field = none) :
    (part read place entries field).FindsIn place entries [(field, shape)] := by
  refine .single ?_
  unfold ShowsIn part
  cases Data.field? entries field with
  | none => exact .good none fun issue => by simp [optional]
  | some d => exact (each (place.key field) d).map some

theorem finds_bindings (place : Place) (d : Data) :
    (bindings place d).Finds (Shape.bindings.ShowsAt place d) := by
  unfold bindings
  refine .mapping (fun absent => ?_) fun entries found => ?_
  · rw [absent]
    exact ⟨by simp [Shape.Admits, absent], rfl⟩
  · rw [found]
    have each (entry : String × Data) :=
      ((finds_nameText place entry.1).map Prod.mk).seq (finds_value (place.key entry.1) entry.2)
    refine ((Finds.collect each entries).map Record.ofList).congr fun issue => ?_
    rw [showsAt_bindings found]

theorem finds_sources (place : Place) (entries : List (String × Data)) :
    (sources place (Data.field? entries "sources")).FindsIn place entries
      [("sources", .sources)] := by
  refine .single ?_
  unfold ShowsIn
  cases Data.field? entries "sources" with
  | none => exact .bad fun issue => by simp [Shape.missing?, Issue.under]
  | some d =>
    cases d with
    | text source => exact .good _ fun issue => not_showsAt (.inl ⟨source, rfl⟩) (by decide) rfl rfl
    | list items => exact finds_textItems rfl (place.key "sources") items
    | _ =>
      exact .bad fun issue =>
        showsAt_of_not_admits (by simp [Shape.Admits, Data.IsText, Data.items?])

theorem finds_fields {α : Type} {x : Checked α} (shape : Shape) (has : shape.fields ≠ [])
    (taken : shape ≠ .nativeModule) {place : Place} {d : Data} {entries : List (String × Data)}
    (found : d.entries? = some entries) (parts : x.FindsIn place entries shape.fields) :
    (onlyFields place (shape.fields.map (·.1)) entries *> x).Finds (shape.ShowsAt place d) := by
  refine ((finds_onlyFields place _ entries).seqRight parts).congr fun issue => ?_
  have skips (step : Step) : ¬shape.Skips d step := fun skips => taken skips.1
  rw [showsAt_fields found has]
  simp only [skips, not_false_eq_true, true_and]

theorem finds_scriptModule {place : Place} {d : Data} {entries : List (String × Data)}
    (found : d.entries? = some entries) :
    (scriptModule place entries).Finds (Shape.scriptModule.ShowsAt place d) := by
  have parts := ((finds_name place entries "name").map ScriptModule.mk).seq
    (finds_sources place entries)
  exact finds_fields .scriptModule (by decide) (by decide) found parts

theorem finds_install (place : Place) (d : Data) :
    (install place d).Finds (Shape.install.ShowsAt place d) := by
  unfold install
  refine .mapping (fun absent => ?_) fun entries found => ?_
  · rw [absent]
    exact ⟨by simp [Shape.Admits, absent], rfl⟩
  · rw [found]
    have list (field : String) := finds_part finds_textList place entries field rfl
    have parts := ((((list "lua").map Install.mk).seq (list "lib")).seq (list "conf")).seq
      (list "bin")
    exact finds_fields .install (by decide) (by decide) found parts

/-! ### Native modules -/

theorem value?_seq {α β : Type} (f : Checked (α → β)) (x : Checked α) :
    (f <*> x).value?.isSome ↔ f.value?.isSome ∧ x.value?.isSome := by
  change (f.value? <*> x.value?).isSome ↔ _
  cases f.value? <;> cases x.value? <;> simp [Seq.seq]

theorem value?_map {α β : Type} (f : α → β) (x : Checked α) :
    (f <$> x).value?.isSome ↔ x.value?.isSome :=
  (value?_seq (good f) x).trans (and_iff_right rfl)

theorem value?_name (place : Place) (field : Option Data) :
    (name place field).value?.isSome ↔
      ∃ value, field = some (.text value) ∧ isName value = true := by
  cases field with
  | none => simp [name, bad]
  | some d =>
    cases d with
    | text value =>
      change (nameText place value).value?.isSome ↔ _
      unfold nameText
      split
      next valid => simp [good, valid]
      next invalid => simp [bad, invalid]
    | _ => simp [name, text, Checked.andThen, bad]

theorem value?_sources (place : Place) (field : Option Data) :
    (sources place field).value?.isSome ↔
      ∃ listed, field = some listed ∧ Shape.sources.Admits listed := by
  cases field with
  | none => simp [sources, bad]
  | some d =>
    cases d with
    | text source => simp [sources, good, Shape.Admits, Data.IsText]
    | list items =>
      simp [sources, textList, textItems, value?_isSome_collect, Shape.Admits, Data.items?]
    | _ => simp [sources, textList, bad, Shape.Admits, Data.IsText, Data.items?]

theorem finds_nativeModule {place : Place} {d : Data} {entries : List (String × Data)}
    (found : d.entries? = some entries) :
    (nativeModule place entries).Finds (Shape.nativeModule.ShowsAt place d) := by
  have base : (Prod.mk <$> name (place.key "name") (Data.field? entries "name") <*>
      sources place (Data.field? entries "sources")).FindsIn place entries
        [("name", .name), ("sources", .sources)] :=
    ((finds_name place entries "name").map Prod.mk).seq (finds_sources place entries)
  have given : (Prod.mk <$> name (place.key "name") (Data.field? entries "name") <*>
      sources place (Data.field? entries "sources")).value?.isSome ↔ ¬Incomplete d := by
    rw [value?_seq, value?_map, value?_name, value?_sources, Incomplete, not_not,
      Data.part?_key found, Data.part?_key found]
  have list (field : String) := finds_part finds_textList place entries field rfl
  have further (m : String × List String) := ((((list "libraries").map
    (NativeModule.mk m.1 m.2)).seq (list "libdirs")).seq (list "incdirs")).seq (list "defines")
  refine ((finds_onlyFields place _ entries).seqRight
    (Finds.andThen base given further)).congr fun issue => ?_
  rw [showsAt_fields found (by decide)]
  refine or_congr Iff.rfl ?_
  -- The further lists are read exactly if the step to them is not skipped.
  by_cases incomplete : Incomplete d <;> simp [Shape.fields, Skips, incomplete, or_assoc]

theorem finds_modules {α : Type} {read : Place → List (String × Data) → Checked α}
    (shape : Shape) {inner : Shape} (inside : shape.itemPart? = some inner)
    (kind : ∀ d, shape.Admits d ↔ d.items?.isSome) (wrong : shape.wrongKind = .notModuleList)
    (innerKind : ∀ d, inner.Admits d ↔ d.entries?.isSome)
    (innerWrong : inner.wrongKind = .notModule)
    (each : ∀ {place d entries}, d.entries? = some entries →
      (read place entries).Finds (inner.ShowsAt place d)) (place : Place) (d : Data) :
    (modules read place d).Finds (shape.ShowsAt place d) := by
  cases d with
  | list items =>
    refine Finds.items inside (fun entry => ?_) place items
    refine .mapping (fun absent => ?_) fun entries found => ?_
    · rw [absent, innerKind, absent, innerWrong]
      exact ⟨Bool.false_ne_true, rfl⟩
    · rw [found]
      exact each found
  | _ =>
    refine .bad fun issue => ?_
    rw [showsAt_of_not_admits (by simp [kind, Data.items?]), wrong]

theorem finds_settings (place : Place) (entries : List (String × Data)) :
    (settings place entries).FindsIn place entries settingsParts := by
  have scripts := finds_modules .scriptModules rfl (fun _ => Iff.rfl) rfl
    (fun _ => Iff.rfl) rfl finds_scriptModule
  have natives := finds_modules .nativeModules rfl (fun _ => Iff.rfl) rfl
    (fun _ => Iff.rfl) rfl finds_nativeModule
  exact ((((finds_part finds_bindings place entries "variables" rfl).map Settings.mk).seq
    (finds_part scripts place entries "scriptModules" rfl)).seq
    (finds_part natives place entries "nativeModules" rfl)).seq
    (finds_part finds_install place entries "install" rfl)

theorem finds_platforms (place : Place) (d : Data) :
    (platforms place d).Finds (Shape.platforms.ShowsAt place d) := by
  unfold platforms
  refine .mapping (fun absent => ?_) fun entries found => ?_
  · rw [absent]
    exact ⟨by simp [Shape.Admits, absent], rfl⟩
  · rw [found]
    refine ((Finds.collect (fun entry => ?_) entries).map Record.ofList).congr fun issue =>
      (showsAt_platforms found).symm
    refine .mapping (fun absent => ?_) fun fields inner => ?_
    · rw [absent]
      exact ⟨by simp [Shape.Admits, absent], rfl⟩
    · rw [inner]
      exact finds_fields .overrides (by decide) (by decide) inner
        ((finds_settings (place.key entry.1) fields).map (Prod.mk entry.1))

theorem finds_description {d : Data} {entries : List (String × Data)}
    (found : d.entries? = some entries) :
    (description entries).Finds (Shape.description.ShowsAt [] d) := by
  have package := (finds_name [] entries "package").map
    fun package buildType supported unsupported errors directories overrides shared =>
      Description.mk package buildType supported unsupported errors directories shared overrides
  have list (field : String) := finds_part finds_textList [] entries field rfl
  have parts := ((((((package.seq (finds_part finds_text [] entries "buildType" rfl)).seq
    (list "supportedPlatforms")).seq (list "unsupportedPlatforms")).seq (list "errors")).seq
    (list "copyDirectories")).seq (finds_part finds_platforms [] entries "platforms" rfl)).seq
    (finds_settings [] entries)
  exact finds_fields .description (by decide) (by decide) found parts

end Reader

/-! ### Something is always reported -/

namespace Shape

variable {shape inner : Shape} {d part : Data} {step : Step}

theorem exists_shows_within (inside : shape.part? step = some inner)
    (there : d.part? step = some part) (taken : ¬shape.Skips d step)
    (shown : ∃ own, inner.Shows part own) : ∃ own, shape.Shows d own := by
  obtain ⟨own, shows⟩ := shown
  exact ⟨own.under [step],
    shows_iff.mpr (.inr ⟨step, inner, part, own, inside, there, taken, shows, rfl⟩)⟩

/-- A field that must be there is missing, or something shows of it, or it holds what it should. -/
theorem exists_shows_of_required {key : String} (mem : (key, inner) ∈ shape.fields)
    (required : (inner.missing? key).isSome)
    (wrong : ∀ part, d.part? (.key key) = some part → ∃ own, inner.Shows part own) :
    ∃ own, shape.Shows d own := by
  have has : shape.fields ≠ [] := List.ne_nil_of_mem mem
  have taken : ¬shape.Skips d (.key key) := by
    intro skips
    have none := skips.missing? mem
    rw [none] at required
    exact Bool.false_ne_true required
  cases mapping : d.entries? with
  | none =>
    have other : ¬shape.Admits d := by simp [admits_iff_of_fields has, mapping]
    exact ⟨_, shows_of_flaw (.wrongKind other)⟩
  | some entries =>
    cases there : d.part? (.key key) with
    | some part =>
      have inside : shape.part? (.key key) = some inner := (keyPart?_eq_some_iff has).mpr mem
      exact exists_shows_within inside there taken (wrong part there)
    | none =>
      obtain ⟨own, flaw⟩ := Option.isSome_iff_exists.mp required
      rw [Data.part?_key mapping] at there
      exact ⟨own, shows_of_flaw (.missing mapping mem there flaw)⟩

theorem exists_shows_of_incomplete (incomplete : Incomplete d) :
    ∃ own, nativeModule.Shows d own := by
  have named : ("name", name) ∈ nativeModule.fields := by decide
  have listed : ("sources", sources) ∈ nativeModule.fields := by decide
  rcases not_and_or.mp incomplete with unnamed | sourceless
  · refine exists_shows_of_required named rfl fun part there => ?_
    by_cases admitted : name.Admits part
    · obtain ⟨value, rfl⟩ := admitted
      have invalid : isName value = false := by
        rw [Bool.eq_false_iff]
        exact fun valid => unnamed ⟨value, there, valid⟩
      exact ⟨_, shows_of_flaw (.invalidName invalid)⟩
    · exact ⟨_, shows_of_flaw (.wrongKind admitted)⟩
  · refine exists_shows_of_required listed rfl fun part there => ?_
    have other : ¬sources.Admits part := fun admitted => sourceless ⟨part, there, admitted⟩
    exact ⟨_, shows_of_flaw (.wrongKind other)⟩

/-- Where something is passed over, something else shows: that a native module is incomplete. -/
theorem exists_shows_of_passesOver {place : Place} (passed : shape.PassesOver d place) :
    ∃ own, shape.Shows d own := by
  induction passed with
  | here skips =>
    obtain ⟨rfl, incomplete, -⟩ := skips
    exact exists_shows_of_incomplete incomplete
  | @within shape _ d _ step _ inside there _ ih =>
    by_cases skips : shape.Skips d step
    · obtain ⟨rfl, incomplete, -⟩ := skips
      exact exists_shows_of_incomplete incomplete
    · exact exists_shows_within inside there skips ih

theorem exists_shows {issue : Issue} (violation : shape.Violates d issue) :
    ∃ own, shape.Shows d own := by
  by_cases passed : shape.PassesOver d issue.place
  · exact exists_shows_of_passesOver passed
  · exact ⟨issue, violation, passed⟩

theorem showsAt_nil {issue : Issue} : shape.ShowsAt [] d issue ↔ shape.Shows d issue := by
  simp [ShowsAt, Issue.under]

end Shape

theorem infix_intercalate {separator part : List Char} {parts : List (List Char)}
    (mem : part ∈ parts) : part <:+: separator.intercalate parts := by
  induction parts with
  | nil => cases mem
  | cons first rest ih =>
    cases rest with
    | nil =>
      have whole : part = separator.intercalate [first] :=
        (List.mem_singleton.mp mem).trans List.intercalate_singleton.symm
      exact whole ▸ List.infix_rfl
    | cons second rest =>
      rw [List.intercalate_cons_cons, List.append_assoc]
      rcases List.mem_cons.mp mem with rfl | later
      · exact (List.prefix_append _ _).isInfix
      · exact (ih later).trans (by rw [← List.append_assoc]; exact (List.suffix_append _ _).isInfix)

theorem ReadError.infix_message {found : List Issue} {issue : Issue} (mem : issue ∈ found) :
    issue.message.toList <:+: (issues found).message.toList := by
  rw [message, String.toList_intercalate, List.map_map]
  exact infix_intercalate (List.mem_map_of_mem mem)

namespace Description

variable {raw : Data} {entries : List (String × Data)}

theorem mem_issues_iff (found : raw.entries? = some entries) (issue : Issue) :
    issue ∈ (Reader.description entries).issues ↔ Shape.description.Shows raw issue :=
  (Reader.finds_description found issue).trans showsAt_nil

/-- A mapping that violates the schema nowhere is a description, and no other one is. -/
theorem isDescription_iff (mapping : raw.entries?.isSome) :
    raw.IsDescription ↔ ∀ issue, ¬Shape.description.Violates raw issue := by
  obtain ⟨entries, found⟩ := Option.isSome_iff_exists.mp mapping
  have shape : raw.IsDescription ↔ AreDescription entries := by
    simp [Data.IsDescription, Data.IsMap, found]
  rw [shape, ← (Reader.exactly_description entries).accepted, List.eq_nil_iff_forall_not_mem]
  simp only [mem_issues_iff found]
  constructor
  · intro silent issue violation
    obtain ⟨own, shows⟩ := exists_shows violation
    exact silent own shows
  · exact fun clean issue shows => clean issue shows.1

/-- All violations of the schema are reported at once, and the text of the error has each of them.
Only in the further lists of a native module that lacks a valid name or its sources nothing is
reported. -/
theorem violation_reported_iff (mapping : raw.entries?.isSome) {issue : Issue}
    (violation : Shape.description.Violates raw issue) :
    ∃ found, read raw = .error (.issues found) ∧
      (issue ∈ found ↔ ¬Shape.description.PassesOver raw issue.place) ∧
      (∀ other ∈ found, Shape.description.Violates raw other ∧
        ¬Shape.description.PassesOver raw other.place) ∧
      ∀ other ∈ found, other.message.toList <:+: (ReadError.issues found).message.toList := by
  obtain ⟨entries, found⟩ := Option.isSome_iff_exists.mp mapping
  obtain ⟨own, shows⟩ := exists_shows violation
  have any : (Reader.description entries).issues ≠ [] :=
    List.ne_nil_of_mem ((mem_issues_iff found own).mpr shows)
  refine ⟨(Reader.description entries).issues, ?_, ?_, ?_, ?_⟩
  · unfold read
    rw [found]
    dsimp only
    split
    next silent _ => exact absurd silent any
    next => rfl
  · rw [mem_issues_iff found]
    exact and_iff_right violation
  · exact fun other mem => (mem_issues_iff found other).mp mem
  · exact fun other mem => ReadError.infix_message mem

/-- A module with a fault in one of its lists, and one that has no name either. -/
def faulty : Data :=
  .map [("package", .text "a b"),
    ("nativeModules", .list
      [.map [("name", .text "core"), ("sources", .text "core.c"),
          ("libraries", .list [.text "m", .null])],
       .map [("sources", .text "b.c"), ("libraries", .text "m")]])]

theorem violation_reported_faulty : faulty.entries?.isSome ∧
    Shape.description.Violates faulty
      ⟨[.key "nativeModules", .item 0, .key "libraries", .item 1], .notText⟩ ∧
    ∃ found, read faulty = .error (.issues found) ∧
      ⟨[.key "nativeModules", .item 0, .key "libraries", .item 1], .notText⟩ ∈ found := by
  have kind : ¬Shape.text.Admits .null := by simp [Admits, Data.IsText]
  have violation : Shape.description.Violates faulty
      ⟨[.key "nativeModules", .item 0, .key "libraries", .item 1], .notText⟩ :=
    .within rfl rfl (.within rfl rfl (.within rfl rfl (.within rfl rfl
      (.here (.wrongKind kind)))))
  have complete : ¬Incomplete (.map [("name", .text "core"), ("sources", .text "core.c"),
      ("libraries", .list [.text "m", .null])]) :=
    not_not_intro ⟨⟨"core", rfl, by decide⟩, .text "core.c", rfl, .inl ⟨"core.c", rfl⟩⟩
  have shown : ¬Shape.description.PassesOver faulty
      [.key "nativeModules", .item 0, .key "libraries", .item 1] := by
    rw [passesOver_cons_iff rfl rfl, passesOver_cons_iff rfl rfl, passesOver_cons_iff rfl rfl]
    rintro (skips | skips | skips | passed)
    · cases skips.1
    · cases skips.1
    · exact complete skips.2.1
    · cases passed with
      | here skips => cases skips.1
      | within _ _ further => cases further
  obtain ⟨found, error, reported, -⟩ := violation_reported_iff rfl violation
  exact ⟨rfl, violation, found, error, reported.mpr shown⟩

def nameless : Data :=
  .map [("package", .text "foo"),
    ("nativeModules", .list [.map [("sources", .text "a.c"), ("libraries", .text "m")]])]

/-- Of a module without a name, nothing is said of a list of a wrong kind. -/
theorem nameless_hides_libraries :
    Shape.description.Violates nameless
      ⟨[.key "nativeModules", .item 0, .key "libraries"], .notTextList⟩ ∧
    ∃ error, read nameless = .error error ∧
      ¬"nativeModules[0].libraries".toList <:+: error.message.toList := by
  have kind : ¬Shape.texts.Admits (.text "m") := Bool.false_ne_true
  refine ⟨.within rfl rfl (.within rfl rfl (.within rfl rfl (.here (.wrongKind kind)))), ?_⟩
  have found : read nameless = .error (.issues
      [⟨[.key "nativeModules", .item 0, .key "name"], .nameMissing⟩]) := by rfl
  refine ⟨_, found, by decide +kernel⟩

end Description

end CMakeScript
