import CMakeScript.Proofs.Schema
import CMakeScript.Description.Issue
import CMakeScript.Table

/-!
# Violations of the schema

Where data does not have the shape of a description, and what is wrong there. A shape is given by
the kind of data it admits and by the shapes of its parts, so a violation is a flaw of one part and
the steps that lead to it: `Shape.Violates`. The further lists of a native module that lacks its
name or its sources are passed over: `Shape.PassesOver`.
-/

namespace CMakeScript

namespace Data

def items? : Data → Option (List Data)
  | list items => some items
  | _ => none

/-- The part into which a step leads. -/
def part? (d : Data) : Step → Option Data
  | .key name => d.entries?.bind (field? · name)
  | .item index => d.items?.bind (·[index]?)

end Data

/-- The issue of a part, as an issue of the data in which the part has the given place. -/
def Issue.under (place : Place) (issue : Issue) : Issue :=
  ⟨place ++ issue.place, issue.fault⟩

/-- What the schema asks of a part of a description. -/
inductive Shape where
  | text | name | texts | value | sources
  | bindings | scriptModule | scriptModules | nativeModule | nativeModules
  | install | platforms | overrides | description
  deriving DecidableEq, Repr

namespace Shape

def settingsParts : List (String × Shape) :=
  [("variables", bindings), ("scriptModules", scriptModules), ("nativeModules", nativeModules),
   ("install", install)]

/-- The fields of a mapping that has no others. -/
def fields : Shape → List (String × Shape)
  | scriptModule => [("name", name), ("sources", sources)]
  | nativeModule =>
    [("name", name), ("sources", sources), ("libraries", texts), ("libdirs", texts),
     ("incdirs", texts), ("defines", texts)]
  | install => [("lua", texts), ("lib", texts), ("conf", texts), ("bin", texts)]
  | overrides => settingsParts
  | description =>
    [("package", name), ("buildType", text), ("supportedPlatforms", texts),
     ("unsupportedPlatforms", texts), ("errors", texts), ("copyDirectories", texts),
     ("platforms", platforms)] ++ settingsParts
  | _ => []

/-- The shape of what stands under a key. -/
def keyPart? (shape : Shape) (key : String) : Option Shape :=
  match shape with
  | bindings => some value
  | platforms => some overrides
  | _ => Table.lookup key shape.fields

/-- The shape of the items of a list. -/
def itemPart? : Shape → Option Shape
  | texts | value | sources => some text
  | scriptModules => some scriptModule
  | nativeModules => some nativeModule
  | _ => none

def part? (shape : Shape) : Step → Option Shape
  | .key key => shape.keyPart? key
  | .item _ => shape.itemPart?

/-- The data is of the kind that the shape asks for, whatever its parts are. -/
def Admits : Shape → Data → Prop
  | text, d | name, d => d.IsText
  | value, d => d.IsText ∨ d = .null ∨ d.items?.isSome
  | sources, d => d.IsText ∨ d.items?.isSome
  | texts, d | scriptModules, d | nativeModules, d => d.items?.isSome
  | _, d => d.entries?.isSome

/-- What is wrong with data of another kind. -/
def wrongKind : Shape → Fault
  | text | name | value => .notText
  | texts | sources => .notTextList
  | bindings => .notVariables
  | scriptModules | nativeModules => .notModuleList
  | scriptModule | nativeModule => .notModule
  | platforms => .notPlatforms
  | install | overrides | description => .notMapping

/-- What is wrong with a mapping that lacks a field of this shape. Most fields may be missing. -/
def missing? (field : String) : Shape → Option Issue
  | name => some ⟨[.key field], .nameMissing⟩
  | sources => some ⟨[], .sourcesMissing⟩
  | _ => none

/-- What is wrong with a part apart from what is wrong with the parts of it. -/
inductive Flaw : Shape → Data → Issue → Prop
  | wrongKind {shape : Shape} {d : Data} : ¬shape.Admits d → Flaw shape d ⟨[], shape.wrongKind⟩
  | invalidName {value : String} : isName value = false →
    Flaw name (.text value) ⟨[], .invalidName value⟩
  | invalidKey {d : Data} {entries : List (String × Data)} {entry : String × Data} :
    d.entries? = some entries → entry ∈ entries → isName entry.1 = false →
    Flaw bindings d ⟨[], .invalidName entry.1⟩
  | unknownField {shape : Shape} {d : Data} {entries : List (String × Data)}
    {entry : String × Data} : shape.fields ≠ [] → d.entries? = some entries → entry ∈ entries →
    entry.1 ∉ shape.fields.map (·.1) → Flaw shape d ⟨[], .unknownField entry.1⟩
  | missing {shape : Shape} {d : Data} {entries : List (String × Data)} {field : String × Shape}
    {issue : Issue} : d.entries? = some entries → field ∈ shape.fields →
    Data.field? entries field.1 = none → field.2.missing? field.1 = some issue →
    Flaw shape d issue

/-- Something in the data is not as the shape asks. Everything that contains it is of the right
kind, since there are steps that lead to it. -/
inductive Violates : Shape → Data → Issue → Prop
  | here {shape : Shape} {d : Data} {issue : Issue} : Flaw shape d issue → Violates shape d issue
  | within {shape inner : Shape} {d part : Data} {step : Step} {issue : Issue} :
    shape.part? step = some inner → d.part? step = some part → Violates inner part issue →
    Violates shape d (issue.under [step])

/-! ### What is passed over -/

/-- The module has no valid name, or no sources, or sources of a wrong kind. -/
def Incomplete (module : Data) : Prop :=
  ¬((∃ value, module.part? (.key "name") = some (.text value) ∧ isName value = true) ∧
    ∃ listed, module.part? (.key "sources") = some listed ∧ sources.Admits listed)

/-- The step leads from an incomplete native module into one of its further lists. -/
def Skips (shape : Shape) (d : Data) (step : Step) : Prop :=
  shape = nativeModule ∧ Incomplete d ∧
    step ∈ [Step.key "libraries", .key "libdirs", .key "incdirs", .key "defines"]

/-- The place is in a further list of an incomplete native module. -/
inductive PassesOver : Shape → Data → Place → Prop
  | here {shape : Shape} {d : Data} {step : Step} {rest : Place} : Skips shape d step →
    PassesOver shape d (step :: rest)
  | within {shape inner : Shape} {d part : Data} {step : Step} {rest : Place} :
    shape.part? step = some inner → d.part? step = some part → PassesOver inner part rest →
    PassesOver shape d (step :: rest)

theorem passesOver_cons_iff {shape inner : Shape} {d part : Data} {step : Step} {rest : Place}
    (inside : shape.part? step = some inner) (there : d.part? step = some part) :
    shape.PassesOver d (step :: rest) ↔ shape.Skips d step ∨ inner.PassesOver part rest := by
  constructor
  · intro passed
    cases passed with
    | here skips => exact .inl skips
    | within same found passed =>
      cases inside.symm.trans same
      cases there.symm.trans found
      exact .inr passed
  · rintro (skips | passed)
    · exact .here skips
    · exact .within inside there passed

/-- A violation that is not passed over. -/
def Shows (shape : Shape) (d : Data) (issue : Issue) : Prop :=
  shape.Violates d issue ∧ ¬shape.PassesOver d issue.place

variable {shape inner : Shape} {d part : Data} {step : Step} {issue : Issue}

theorem Skips.missing? {field : String × Shape} (mem : field ∈ shape.fields)
    (skips : shape.Skips d (.key field.1)) : field.2.missing? field.1 = none := by
  obtain ⟨rfl, -, listed⟩ := skips
  simp only [fields, List.mem_cons, List.not_mem_nil, or_false] at mem
  rcases mem with rfl | rfl | rfl | rfl | rfl | rfl
  · simp at listed
  · simp at listed
  all_goals rfl

theorem shows_of_flaw (flaw : Flaw shape d issue) : shape.Shows d issue := by
  refine ⟨.here flaw, fun passed => ?_⟩
  cases flaw with
  | wrongKind | invalidName | invalidKey | unknownField => cases passed
  | missing found mem absent same =>
    -- The place of a missing name is the only one that leads on.
    unfold Shape.missing? at same
    split at same
    next named =>
      cases same
      cases passed with
      | here skips =>
        have none := skips.missing? mem
        rw [named] at none
        cases none
      | within _ _ further => cases further
    next => cases same; cases passed
    next => cases same

theorem shows_iff : shape.Shows d issue ↔ Flaw shape d issue ∨
    ∃ step inner part own, shape.part? step = some inner ∧ d.part? step = some part ∧
      ¬shape.Skips d step ∧ inner.Shows part own ∧ issue = own.under [step] := by
  constructor
  · rintro ⟨violation, shown⟩
    cases violation with
    | here flaw => exact .inl flaw
    | within inside there violation =>
      exact .inr ⟨_, _, _, _, inside, there, fun skips => shown (.here skips),
        ⟨violation, fun passed => shown (.within inside there passed)⟩, rfl⟩
  · rintro (flaw | ⟨step, inner, part, own, inside, there, taken, ⟨violation, shown⟩, rfl⟩)
    · exact shows_of_flaw flaw
    · refine ⟨.within inside there violation, fun passed => ?_⟩
      exact ((passesOver_cons_iff inside there).mp passed).elim taken shown

end Shape

end CMakeScript
