import CMakeScript.Proofs.Guards

/-!
# Reports of unknown platforms

A platform that is unknown is reported where it is listed, and where it is a key of settings of its
own if these settings say anything. With settings that say nothing it is passed over:
`unknown_reported_iff`.
-/

namespace CMakeScript

open Program Statement

/-- The settings bind a variable, install a file or have a module. -/
def Settings.SaysSomething (s : Settings) : Prop :=
  s.variableList ≠ [] ∨ (∃ entry ∈ (s.install.getD {}).lists, entry.2 ≠ []) ∨
    s.scriptModules.getD [] ≠ [] ∨ s.nativeModules.getD [] ≠ []

theorem setList_ne_nil_iff (name : String) (items : List String) (scope : Scope) :
    Call.setList name items scope ≠ [] ↔ items ≠ [] := by
  unfold Call.setList
  cases items <;> simp

theorem Settings.calls_ne_nil_iff (s : Settings) (scope : Scope) :
    s.calls scope ≠ [] ↔ s.SaysSomething := by
  have scripts (m : ScriptModule) : m.calls scope ≠ [] :=
    List.append_ne_nil_of_right_ne_nil _ (List.cons_ne_nil _ _)
  have natives (m : NativeModule) : m.calls scope ≠ [] :=
    List.append_ne_nil_of_right_ne_nil _ (List.cons_ne_nil _ _)
  constructor
  · intro some
    obtain ⟨call, mem⟩ := List.exists_mem_of_ne_nil _ some
    simp only [calls, Install.calls, List.mem_append, List.mem_map, List.mem_flatMap] at mem
    rcases mem with ((⟨entry, bound, -⟩ | ⟨entry, listed, set⟩) | ⟨m, listed, -⟩) | ⟨m, listed, -⟩
    · exact .inl (List.ne_nil_of_mem bound)
    · exact .inr (.inl ⟨entry, listed, (setList_ne_nil_iff _ _ _).mp (List.ne_nil_of_mem set)⟩)
    · exact .inr (.inr (.inl (List.ne_nil_of_mem listed)))
    · exact .inr (.inr (.inr (List.ne_nil_of_mem listed)))
  · intro content none
    simp only [calls, Install.calls, List.append_eq_nil_iff, List.map_eq_nil_iff,
      List.flatMap_eq_nil_iff] at none
    obtain ⟨⟨⟨unbound, uninstalled⟩, noScripts⟩, noNatives⟩ := none
    rcases content with bound | ⟨entry, listed, ne⟩ | modules | modules
    · exact bound unbound
    · exact (setList_ne_nil_iff _ _ _).mpr ne (uninstalled entry listed)
    · obtain ⟨m, mem⟩ := List.exists_mem_of_ne_nil _ modules
      exact scripts m (noScripts m mem)
    · obtain ⟨m, mem⟩ := List.exists_mem_of_ne_nil _ modules
      exact natives m (noNatives m mem)

theorem eq_of_between {a b p q : String} (same : a ++ p ++ b = a ++ q ++ b) : p = q := by
  have chars := congrArg String.toList same
  simp only [String.toList_append, List.append_assoc, List.append_cancel_left_eq,
    List.append_cancel_right_eq] at chars
  exact String.ext chars

theorem Problem.message_unknownPlatform_inj {p q : String}
    (same : (unknownPlatform p).message = (unknownPlatform q).message) : p = q :=
  eq_of_between same

namespace Description

variable {d : Description}

theorem names_iff {id : String} : d.Names id ↔
    id ∈ d.supportedPlatforms.getD [] ∨ id ∈ d.unsupportedPlatforms.getD [] ∨
      ∃ s, (id, s) ∈ d.overrides ∧ s.SaysSomething := by
  simp only [Names, Settings.calls_ne_nil_iff]

/-- An unknown platform is among the errors if it is named, or if another problem has its text. -/
theorem message_mem_errors_iff {id : String} (unknown : Platform.ofId? id = none) :
    (Problem.unknownPlatform id).message ∈ d.generate.errors ↔ d.Names id ∨
      ∃ problem ∈ d.reports, problem.message = (Problem.unknownPlatform id).message := by
  rw [generate_errors, List.mem_map]
  constructor
  · rintro ⟨problem, mem, same⟩
    rcases mem_problems.mp mem with reported | ⟨other, named, -, rfl⟩
    · exact .inr ⟨problem, reported, same⟩
    · rw [← Problem.message_unknownPlatform_inj same]
      exact .inl named
  · rintro (named | ⟨problem, reported, same⟩)
    · exact ⟨_, mem_problems.mpr (.inr ⟨id, named, unknown, rfl⟩), rfl⟩
    · exact ⟨problem, mem_problems.mpr (.inl reported), same⟩

theorem mem_directivesOf {c : Directive} {statements : List Statement}
    (mem : Statement.directive c ∈ statements) : c ∈ directivesOf statements := by
  obtain ⟨before, after, rfl⟩ := List.append_of_mem mem
  rw [directivesOf_append]
  exact List.mem_append_right _ (List.mem_append_left _ (List.mem_singleton_self c))

/-- The program stops with a message exactly if the message is among the errors. -/
theorem fatal_mem_program_iff (d : Description) (message : String) :
    fatal message ∈ d.program ↔ message ∈ d.generate.errors := by
  have fatal_only : (⟨"message", ["FATAL_ERROR", message]⟩ : Directive).isFatal = true := rfl
  rw [generate_errors]
  constructor
  · intro mem
    -- Outside of the errors, a message that stops a run stands in a block or not at all.
    rcases List.mem_append.mp mem with before | later
    · have other := not_isFatal (uses_preamble d.package) (by decide) _ (mem_directivesOf before)
      exact absurd fatal_only (by rw [other]; decide)
    rcases List.mem_append.mp later with guard | work
    · rcases List.mem_append.mp guard with error | guard
      · obtain ⟨text, listed, same⟩ := List.mem_map.mp error
        cases same
        exact listed
      rcases List.mem_append.mp guard with excluded | restricted
      · obtain ⟨p, -, same⟩ := List.mem_map.mp excluded
        cases same
      · unfold restriction at restricted
        split at restricted
        · exact absurd restricted List.not_mem_nil
        · cases List.mem_singleton.mp restricted
    · have other := not_isFatal (uses_work d) (by decide) _ (mem_directivesOf work)
      exact absurd fatal_only (by rw [other]; decide)
  · intro mem
    exact List.mem_append_right _ (List.mem_append_left _ (List.mem_append_left _
      (List.mem_map_of_mem mem)))

/-- An unknown platform is reported, among the errors and by a message that stops the run of the
script, exactly if it is listed, or has settings that say something, or another problem happens to
have the same text. -/
theorem unknown_reported_iff {raw : Data} (accepted : read raw = .ok d) {id : String}
    (unknown : Platform.ofId? id = none) :
    ((Problem.unknownPlatform id).message ∈ d.generate.errors ↔
      id ∈ d.supportedPlatforms.getD [] ∨ id ∈ d.unsupportedPlatforms.getD [] ∨
      (∃ s, (id, s) ∈ d.overrides ∧ s.SaysSomething) ∨
      ∃ problem ∈ d.reports, problem.message = (Problem.unknownPlatform id).message) ∧
    ∃ statements, parse d.generate.script = some statements ∧
      (fatal (Problem.unknownPlatform id).message ∈ statements ↔
        (Problem.unknownPlatform id).message ∈ d.generate.errors) := by
  refine ⟨?_, d.program, parse_script (wellNamed_of_read accepted), fatal_mem_program_iff d _⟩
  rw [message_mem_errors_iff unknown, names_iff, or_assoc, or_assoc]

def unknownEverywhere : Data :=
  .map [("package", .text "foo"), ("supportedPlatforms", Data.texts ["beos"]),
    ("platforms", .map [("solaris", .map [("install", .map [("bin", Data.texts ["run"])])])])]

theorem unknown_reported_solaris : ∃ d, read unknownEverywhere = .ok d ∧
    Platform.ofId? "solaris" = none ∧
    (Problem.unknownPlatform "solaris").message ∈ d.generate.errors ∧
    ∃ statements, parse d.generate.script = some statements ∧
      fatal (Problem.unknownPlatform "solaris").message ∈ statements := by
  have found : (read unknownEverywhere).toOption.map (fun d => d.generate.errors) =
      some [(Problem.unknownPlatform "beos").message,
        (Problem.unknownPlatform "solaris").message] := by decide +kernel
  obtain ⟨d, accepted, errors⟩ := exists_of_read found
  have unknown : Platform.ofId? "solaris" = none := by decide
  have reported : (Problem.unknownPlatform "solaris").message ∈ d.generate.errors := by
    rw [errors]
    exact List.mem_cons_of_mem _ (List.mem_singleton_self _)
  obtain ⟨-, statements, read, same⟩ := unknown_reported_iff accepted unknown
  exact ⟨d, accepted, unknown, reported, statements, read, same.mpr reported⟩

def unknownInSilence : Data :=
  .map [("package", .text "foo"), ("platforms", .map [("solaris", .map [])])]

/-- An unknown platform is not reported if its settings say nothing. -/
theorem unknown_in_silence : ∃ d, read unknownInSilence = .ok d ∧
    Platform.ofId? "solaris" = none ∧ "solaris" ∈ d.overrides.map (·.1) ∧
    d.generate.errors = [] ∧
    ∀ message statements, parse d.generate.script = some statements →
      fatal message ∉ statements := by
  have found : (read unknownInSilence).toOption.map
      (fun d => (d.overrides.map (·.1), d.generate.errors)) = some (["solaris"], []) := by
    decide +kernel
  obtain ⟨d, accepted, both⟩ := exists_of_read found
  obtain ⟨keys, errors⟩ := Prod.mk.inj both
  refine ⟨d, accepted, by decide, ?_, errors, ?_⟩
  · rw [keys]
    exact List.mem_singleton_self _
  · intro message statements read mem
    have program := parse_script (wellNamed_of_read accepted)
    rw [generate, program] at read
    cases read
    rw [fatal_mem_program_iff, errors] at mem
    exact absurd mem List.not_mem_nil

end Description

end CMakeScript
