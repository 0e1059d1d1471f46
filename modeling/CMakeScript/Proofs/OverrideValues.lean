import CMakeScript.Proofs.ScriptReading

/-!
# Values of overridden variables

The block of a platform is indented as a whole, and so are the lines of the values in it. A value is
read back from the block as it was declared exactly if it has no line end: `override_reads_back`.
-/

namespace CMakeScript

open Program Statement

theorem map_reindent_eq_self_iff (items : List String) :
    items.map reindent = items ↔ ∀ item ∈ items, '\n' ∉ item.toList := by
  induction items with
  | nil => simp
  | cons item rest ih => simp [ih, reindent_eq_self_iff]

/-- Settings that bind a single variable. -/
def Settings.single (name : String) (v : Value) : Settings :=
  { bindings := some (Record.ofList [(name, v)]) }

theorem Settings.variableList_single (name : String) (v : Value) :
    (single name v).variableList = [(name, v)] :=
  Record.arrange_of_ordered (List.pairwise_singleton _ _)

theorem Settings.writes_single (name : String) (v : Value) :
    (single name v).writes = [(name, v.items)] := by
  rw [writes, variableList_single]
  rfl

theorem Settings.bound_single (name : String) (v : Value) :
    (single name v).bound = [(name, v.items)] := by
  rw [bound, writes_single]
  rfl

def variableBlocks (known : List (Platform × Settings)) : List Statement :=
  platformAssignments (known.map fun entry => (entry.1, entry.2.bound))

theorem variableBlocks_split (before after : List (Platform × Settings)) (p : Platform)
    (name : String) (v : Value) :
    variableBlocks (before ++ (p, .single name v) :: after) = variableBlocks before ++
      .conditional [p.token] [assignment name (v.items.map reindent)] :: variableBlocks after := by
  simp [variableBlocks, platformAssignments, platformBlocks, Settings.bound_single]

namespace Description

/-- The program of a description around the statements for its variables. -/
def programAround (d : Description) (shared overridden : List Statement) : List Statement :=
  preamble d.package ++ (d.guards ++ (shared ++ (overridden ++ (installCopy ++ d.modules))))

variable {d : Description} {name : String} {v : Value}

/-- The script sets the variable of an override in the block of the platform, to the indented
values. -/
theorem parse_override (named : d.WellNamed) {p : Platform}
    (own : (p.id, Settings.single name v) ∈ d.overrides) :
    ∃ before after, d.known = before ++ (p, .single name v) :: after ∧
      parse d.generate.script = some (d.programAround (assignments d.bound)
        (variableBlocks before ++ .conditional [p.token] [assignment name (v.items.map reindent)] ::
          variableBlocks after)) := by
  have known : (p, Settings.single name v) ∈ d.known :=
    List.mem_filterMap.mpr ⟨_, own, by rw [Platform.ofId?_id]; rfl⟩
  obtain ⟨before, after, split⟩ := List.append_of_mem known
  refine ⟨before, after, split, ?_⟩
  rw [← variableBlocks_split, ← split]
  exact parse_script named

/-- The script sets the variable of the default settings at top level, to the values. -/
theorem parse_default (named : d.WellNamed) (default : d.settings = .single name v)
    (free : name = Variable.copyDirectories → d.copyDirectories.getD [] = []) :
    parse d.generate.script = some (d.programAround
      (assignment name v.items ::
        assignments (listWrite Variable.copyDirectories (d.copyDirectories.getD [])))
      (variableBlocks d.known)) := by
  have bound : d.bound =
      (name, v.items) :: listWrite Variable.copyDirectories (d.copyDirectories.getD []) := by
    rw [Description.bound, writes, default, Settings.writes_single]
    unfold listWrite
    split
    next => rfl
    next copied =>
      have other : name ≠ Variable.copyDirectories := by
        intro same
        exact copied (by rw [free same]; rfl)
      simp [Table.ofList, Table.set, Table.update, Table.alter, other]
  have read := parse_script named
  rw [program, work, bound] at read
  exact read

/-! ### Packages with a single variable -/

def overriding (package : String) (p : Platform) (name : String) (v : Value) : Description :=
  { package, platforms := some (Record.ofList [(p.id, .single name v)]) }

def defaulting (package name : String) (v : Value) : Description :=
  { package, settings := .single name v }

theorem wellNamed_single {name : String} (h : isName name = true) (v : Value) :
    (Settings.single name v).WellNamed := by
  refine ⟨?_, fun _ mem => absurd mem List.not_mem_nil, fun _ mem => absurd mem List.not_mem_nil⟩
  rw [Settings.variableList_single]
  intro entry mem
  rw [List.mem_singleton.mp mem]
  exact h

theorem overrides_overriding (package : String) (p : Platform) (name : String) (v : Value) :
    (overriding package p name v).overrides = [(p.id, .single name v)] :=
  Record.arrange_of_ordered (List.pairwise_singleton _ _)

theorem wellNamed_overriding {package name : String} (hp : isName package = true)
    (hn : isName name = true) (p : Platform) (v : Value) :
    (overriding package p name v).WellNamed := by
  refine ⟨hp, ⟨fun _ mem => absurd mem List.not_mem_nil, fun _ mem => absurd mem List.not_mem_nil,
    fun _ mem => absurd mem List.not_mem_nil⟩, ?_⟩
  rw [overrides_overriding]
  intro entry mem
  rw [List.mem_singleton.mp mem]
  exact wellNamed_single hn v

theorem wellNamed_defaulting {package name : String} (hp : isName package = true)
    (hn : isName name = true) (v : Value) : (defaulting package name v).WellNamed :=
  ⟨hp, wellNamed_single hn v, fun _ mem => absurd mem List.not_mem_nil⟩

theorem parse_overriding {package name : String} (hp : isName package = true)
    (hn : isName name = true) (p : Platform) (v : Value) :
    parse (overriding package p name v).generate.script = some (preamble package ++
      (.conditional [p.token] [assignment name (v.items.map reindent)] :: installCopy)) := by
  have known : (overriding package p name v).known = [(p, .single name v)] := by
    rw [Description.known, overrides_overriding]
    simp [Platform.ofId?_id]
  have problems : (overriding package p name v).problems = [] := by
    rw [Description.problems, overrides_overriding]
    simp [Call.unknown?, Platform.ofId?_id, reports, overriding]
  have guards : (overriding package p name v).guards = [] := by
    rw [Description.guards, problems]
    rfl
  have block := variableBlocks_split [] [] p name v
  have read := parse_script (wellNamed_overriding hp hn p v)
  rw [variableBlocks, List.nil_append] at block
  rw [program, work, modules, guards, known, block] at read
  exact read

theorem parse_defaulting {package name : String} (hp : isName package = true)
    (hn : isName name = true) (v : Value) :
    parse (defaulting package name v).generate.script =
      some (preamble package ++ (assignment name v.items :: installCopy)) := by
  have guards : (defaulting package name v).guards = [] := rfl
  have read := parse_default (wellNamed_defaulting hp hn v) rfl fun _ => rfl
  rw [programAround, guards] at read
  exact read

/-! ### What is read back -/

/-- A variable that is bound to the same value on a platform and by default has the same arguments
in both places exactly if no argument has a line end. By default they are always the declared
ones. -/
theorem override_reads_back {shared : Description} (named : d.WellNamed)
    (sharedNamed : shared.WellNamed) {p : Platform}
    (own : (p.id, Settings.single name v) ∈ d.overrides)
    (default : shared.settings = .single name v)
    (free : name = Variable.copyDirectories → shared.copyDirectories.getD [] = []) :
    ∃ before after, d.known = before ++ (p, .single name v) :: after ∧
      parse d.generate.script = some (d.programAround (assignments d.bound)
        (variableBlocks before ++ .conditional [p.token] [assignment name (v.items.map reindent)] ::
          variableBlocks after)) ∧
      parse shared.generate.script = some (shared.programAround
        (assignment name v.items ::
          assignments (listWrite Variable.copyDirectories (shared.copyDirectories.getD [])))
        (variableBlocks shared.known)) ∧
      (v.items.map reindent = v.items ↔ ∀ item ∈ v.items, '\n' ∉ item.toList) := by
  obtain ⟨before, after, split, read⟩ := parse_override named own
  exact ⟨before, after, split, read, parse_default sharedNamed default free,
    map_reindent_eq_self_iff v.items⟩

theorem override_reads_back_words :
    ∃ before after,
      (overriding "foo" .linux "X" (.list ["a b", "$c"])).known =
        before ++ (.linux, .single "X" (.list ["a b", "$c"])) :: after ∧
      parse (overriding "foo" .linux "X" (.list ["a b", "$c"])).generate.script =
        some ((overriding "foo" .linux "X" (.list ["a b", "$c"])).programAround
          (assignments (overriding "foo" .linux "X" (.list ["a b", "$c"])).bound)
          (variableBlocks before ++ .conditional ["UNIX"] [assignment "X" ["a b", "$c"]] ::
            variableBlocks after)) := by
  have package : isName "foo" = true := by decide
  have name : isName "X" = true := by decide
  have own : (Platform.linux.id, Settings.single "X" (.list ["a b", "$c"])) ∈
      (overriding "foo" .linux "X" (.list ["a b", "$c"])).overrides := by
    rw [overrides_overriding]
    exact List.mem_singleton_self _
  obtain ⟨before, after, split, read, -, same⟩ := override_reads_back
    (wellNamed_overriding package name .linux (.list ["a b", "$c"]))
    (wellNamed_defaulting package name (.list ["a b", "$c"])) own rfl (fun _ => rfl)
  rw [same.mpr (by decide)] at read
  exact ⟨before, after, split, read⟩

/-- A value of two lines is not read back from the block of a platform. -/
theorem override_indents_lines :
    parse (overriding "foo" .linux "X" (.text "a\nb")).generate.script = some (preamble "foo" ++
      (.conditional ["UNIX"] [assignment "X" ["a\n    b"]] :: installCopy)) ∧
    parse (defaulting "foo" "X" (.text "a\nb")).generate.script = some (preamble "foo" ++
      (assignment "X" ["a\nb"] :: installCopy)) ∧
    ["a\n    b"] ≠ ["a\nb"] := by
  have package : isName "foo" = true := by decide
  have name : isName "X" = true := by decide
  have indented : (Value.text "a\nb").items.map reindent = ["a\n    b"] := by decide +kernel
  have override := parse_overriding package name .linux (.text "a\nb")
  rw [indented] at override
  exact ⟨override, parse_defaulting package name (.text "a\nb"), by decide⟩

end Description

end CMakeScript
