import CMakeScript.Proofs.Execution
import CMakeScript.Proofs.ScriptReading

/-!
# The guards of a script

Whatever stops the run of a script stands before the statements that do anything for the package.
`guards_fail_closed` says on which platforms the guards stop the run: on all of them once a problem
has been recorded, and never on fewer than the description asks for.
-/

namespace CMakeScript

open Program Statement

/-! ### Commands of a list of statements -/

/-- All commands of the statements are among the given ones. -/
def Uses (commands : List String) (statements : List Statement) : Prop :=
  ∀ d ∈ directivesOf statements, d.name ∈ commands

namespace Uses

variable {commands : List String}

theorem nil : Uses commands [] := fun _ mem => absurd mem List.not_mem_nil

theorem append {first second : List Statement} (hf : Uses commands first)
    (hs : Uses commands second) : Uses commands (first ++ second) := by
  intro d mem
  rw [directivesOf_append] at mem
  rcases List.mem_append.mp mem with before | later
  · exact hf d before
  · exact hs d later

theorem flatMap {α : Type} {body : α → List Statement} (h : ∀ a, Uses commands (body a))
    (items : List α) : Uses commands (items.flatMap body) := by
  intro d mem
  rw [directivesOf_flatMap] at mem
  obtain ⟨item, -, inside⟩ := List.mem_flatMap.mp mem
  exact h item d inside

theorem map {α : Type} {body : α → Statement} (h : ∀ a, Uses commands [body a])
    (items : List α) : Uses commands (items.map body) := by
  rw [List.map_eq_flatMap]
  exact flatMap h items

theorem conditional {condition : List String} {body : List Statement} (h : Uses commands body)
    (opening : "if" ∈ commands) (closing : "endif" ∈ commands) :
    Uses commands [.conditional condition body] := by
  intro d mem
  simp only [directivesOf, directives, List.append_nil, List.mem_cons, List.mem_append,
    List.not_mem_nil, or_false] at mem
  rcases mem with rfl | inside | rfl
  · exact opening
  · exact h d inside
  · exact closing

theorem platformBlocks {α β : Type} {parts : α → List β} {body : β → List Statement}
    (h : ∀ part, Uses commands (body part)) (opening : "if" ∈ commands)
    (closing : "endif" ∈ commands) (entries : List (Platform × α)) :
    Uses commands (Program.platformBlocks parts body entries) := by
  refine flatMap (fun entry => ?_) entries
  split
  · exact nil
  · exact conditional (flatMap h _) opening closing

end Uses

theorem uses_of_names {commands : List String} {statements : List Statement} (names : List String)
    (same : (directivesOf statements).map (·.name) = names) (h : ∀ name ∈ names, name ∈ commands) :
    Uses commands statements := by
  intro d mem
  subst same
  exact h d.name (List.mem_map_of_mem mem)

theorem uses_directive {commands : List String} {name : String} {arguments : List String}
    (h : name ∈ commands) : Uses commands [directive name arguments] := by
  intro d mem
  rw [List.mem_singleton.mp mem]
  exact h

def projectCommands : List String := ["cmake_minimum_required", "project", "find_package", "set"]

def guardCommands : List String := ["message", "if", "endif"]

def workCommands : List String :=
  ["set", "install", "if", "endif", "add_library", "foreach", "find_library", "endforeach",
   "target_include_directories", "target_compile_definitions", "target_link_libraries"]

theorem uses_preamble (package : String) : Uses projectCommands (preamble package) :=
  uses_of_names ["cmake_minimum_required", "project", "find_package", "set", "set", "set", "set",
    "set", "set"] rfl (by decide)

theorem uses_guards (d : Description) : Uses guardCommands d.guards := by
  have stop (message : String) : Uses guardCommands [fatal message] := uses_directive (by decide)
  have excluded (p : Platform) : Uses guardCommands [.conditional [p.token]
      [fatal "Unsupported platform (your platform was explicitly marked as not supported)"]] :=
    .conditional (stop _) (by decide) (by decide)
  refine .append (.map stop _) (.append (.map excluded _) ?_)
  unfold restriction
  split
  · exact .nil
  · exact .conditional (stop _) (by decide) (by decide)

theorem uses_nativeLibrary (name : String) : Uses workCommands (nativeLibrary name) :=
  uses_of_names ["add_library", "foreach", "find_library", "endforeach",
    "target_include_directories", "target_compile_definitions", "target_link_libraries",
    "install"] rfl (by decide)

theorem uses_work (d : Description) : Uses workCommands d.work := by
  have set (entry : String × List String) : Uses workCommands [assignment entry.1 entry.2] :=
    uses_directive (by decide)
  have install (name : String) : Uses workCommands [scriptInstall name] :=
    uses_directive (by decide)
  have copy : Uses workCommands installCopy :=
    uses_of_names (List.replicate 5 "install") rfl (by decide)
  refine .append (.map set _) (.append ?_ (.append copy ?_))
  · exact .platformBlocks (fun entry => uses_directive (by decide)) (by decide) (by decide) _
  refine .append (.map install _) (.append ?_ (.append ?_ ?_))
  · exact .platformBlocks install (by decide) (by decide) _
  · exact .flatMap uses_nativeLibrary _
  · exact .platformBlocks uses_nativeLibrary (by decide) (by decide) _

theorem not_isFatal {commands : List String} {statements : List Statement}
    (h : Uses commands statements) (other : "message" ∉ commands) :
    ∀ d ∈ directivesOf statements, d.isFatal = false := by
  intro d mem
  have ne : d.name ≠ "message" := by
    intro same
    exact other (same ▸ h d mem)
  simp [Directive.isFatal, ne]

/-! ### Where the guards stop a run -/

section Stopping

variable (w : World)

theorem stopped_fatal (message : String) : (executeAll w [fatal message]).stopped = true := by
  rw [executeAll, Execution.stopped_andThen]
  rfl

theorem stopped_errors (messages : List String) :
    (executeAll w (errors messages)).stopped = true ↔ messages ≠ [] := by
  cases messages with
  | nil => exact ⟨fun h => Bool.noConfusion h, fun h => absurd rfl h⟩
  | cons message rest =>
    have stops : (execute w (fatal message)).stopped = true := rfl
    rw [errors, List.map_cons, executeAll, Execution.stopped_andThen, stops]
    simp

theorem stopped_conditional (condition : List String) (message : String) :
    (execute w (.conditional condition [fatal message])).stopped = holds w condition := by
  rw [execute]
  cases h : holds w condition with
  | true => exact stopped_fatal w message
  | false => rfl

theorem stopped_exclusions (platforms : List Platform) :
    (executeAll w (exclusions platforms)).stopped = true ↔
      ∃ p ∈ platforms, w.isTrue p.token = true := by
  rw [stopped_executeAll, exclusions, List.any_map, List.any_eq_true]
  simp only [Function.comp_apply, stopped_conditional, holds_token]

theorem stopped_restriction (platforms : List Platform) :
    (executeAll w (restriction platforms)).stopped = true ↔
      platforms ≠ [] ∧ ∀ p ∈ platforms, w.isTrue p.token = false := by
  unfold restriction
  cases platforms with
  | nil => exact ⟨fun h => Bool.noConfusion h, fun h => absurd rfl h.1⟩
  | cons p rest =>
    have ne : p :: rest ≠ [] := List.cons_ne_nil p rest
    rw [List.isEmpty_cons, if_neg Bool.false_ne_true, stopped_executeAll, List.any_cons,
      List.any_nil, Bool.or_false, stopped_conditional, holds_noneOf w ne, List.all_eq_true]
    simp only [Bool.not_eq_true', ne_eq, ne, not_false_eq_true, true_and]

theorem stopped_guards (d : Description) :
    (executeAll w d.guards).stopped = true ↔
      d.problems ≠ [] ∨ (∃ p ∈ d.excluded, w.isTrue p.token = true) ∨
        (d.supported ≠ [] ∧ ∀ p ∈ d.supported, w.isTrue p.token = false) := by
  have reported := stopped_errors w (d.problems.map Problem.message)
  rw [ne_eq, List.map_eq_nil_iff] at reported
  rw [Description.guards, executeAll_append, executeAll_append, Execution.stopped_andThen,
    Execution.stopped_andThen, Bool.or_eq_true, Bool.or_eq_true, reported, stopped_exclusions,
    stopped_restriction]

end Stopping

/-! ### The guards of a description -/

namespace Description

variable {d : Description}

/-- The guards stop a run exactly on the platforms on which they have to. -/
theorem stopped_guards_iff (w : World) :
    (executeAll w d.guards).stopped = true ↔
      d.generate.errors ≠ [] ∨
      (∃ id ∈ d.unsupportedPlatforms.getD [], ∃ p, Platform.ofId? id = some p ∧
        w.isTrue p.token = true) ∨
      ((∃ id ∈ d.supportedPlatforms.getD [], ∃ p, Platform.ofId? id = some p) ∧
        ∀ id ∈ d.supportedPlatforms.getD [], ∀ p, Platform.ofId? id = some p →
          w.isTrue p.token = false) := by
  have excluded : (∃ p ∈ d.excluded, w.isTrue p.token = true) ↔
      ∃ id ∈ d.unsupportedPlatforms.getD [], ∃ p, Platform.ofId? id = some p ∧
        w.isTrue p.token = true := by
    constructor
    · rintro ⟨p, mem, holds⟩
      obtain ⟨id, listed, known⟩ := List.mem_filterMap.mp mem
      exact ⟨id, listed, p, known, holds⟩
    · rintro ⟨id, listed, p, known, holds⟩
      exact ⟨p, List.mem_filterMap.mpr ⟨id, listed, known⟩, holds⟩
  have restricted : d.supported ≠ [] ↔
      ∃ id ∈ d.supportedPlatforms.getD [], ∃ p, Platform.ofId? id = some p := by
    constructor
    · intro ne
      obtain ⟨p, mem⟩ := List.exists_mem_of_ne_nil _ ne
      obtain ⟨id, listed, known⟩ := List.mem_filterMap.mp mem
      exact ⟨id, listed, p, known⟩
    · rintro ⟨id, listed, p, known⟩
      exact List.ne_nil_of_mem (List.mem_filterMap.mpr ⟨id, listed, known⟩)
  have nowhere : (∀ p ∈ d.supported, w.isTrue p.token = false) ↔
      ∀ id ∈ d.supportedPlatforms.getD [], ∀ p, Platform.ofId? id = some p →
        w.isTrue p.token = false := by
    constructor
    · intro h id listed p known
      exact h p (List.mem_filterMap.mpr ⟨id, listed, known⟩)
    · intro h p mem
      obtain ⟨id, listed, known⟩ := List.mem_filterMap.mp mem
      exact h id listed p known
  rw [stopped_guards, excluded, restricted, nowhere, generate_errors, ne_eq, ne_eq,
    List.map_eq_nil_iff]

theorem stopped_guards_of_restricted (w : World) (listed : d.supportedPlatforms.getD [] ≠ [])
    (nowhere : ∀ id ∈ d.supportedPlatforms.getD [], ∀ p, Platform.ofId? id = some p →
      w.isTrue p.token = false) : (executeAll w d.guards).stopped = true := by
  rw [stopped_guards_iff]
  -- One identifier decides: if it is known there is a guard, and if not there is a problem.
  obtain ⟨id, mem⟩ := List.exists_mem_of_ne_nil _ listed
  cases known : Platform.ofId? id with
  | some p => exact .inr (.inr ⟨⟨id, mem, p, known⟩, nowhere⟩)
  | none =>
    have problem : Problem.unknownPlatform id ∈ d.problems :=
      mem_problems.mpr (.inr ⟨id, .inl mem, known, rfl⟩)
    rw [generate_errors, ne_eq, List.map_eq_nil_iff]
    exact .inl (List.ne_nil_of_mem problem)

theorem parse_guards (d : Description) :
    parse (String.join ((d.configure.sections.drop 1).take 3)) = some d.guards := by
  have plain : arePlain d.guards = true := by
    simp only [guards, arePlain_append, arePlain_errors, arePlain_exclusions,
      arePlain_restriction, Bool.and_self]
  have joined : String.join ((d.configure.sections.drop 1).take 3) =
      Section.errors d.configure.errors ++ (Section.exclusions d.configure.excluded ++
        Section.restriction d.configure.supported) := by
    simp [Configuration.sections]
  have text := reads_guards d
  unfold Lexer.Reads at text
  refine parse_of_read plain ?_
  rw [joined, Lexer.read, text]
  rfl

theorem stopped_before {w : World} (stopped : (executeAll w d.guards).stopped = true) :
    (executeAll w (preamble d.package ++ d.guards)).stopped = true := by
  rw [executeAll_append, Execution.stopped_andThen, stopped, Bool.or_true]

/-- A run that the guards stop does not come to anything that is done for the package. -/
theorem execute_program_of_stopped {w : World} (stopped : (executeAll w d.guards).stopped = true) :
    executeAll w d.program = executeAll w (preamble d.package ++ d.guards) := by
  rw [program, ← List.append_assoc, executeAll_append,
    Execution.andThen_of_stopped (stopped_before stopped)]

/-- The guards of a description that has been read come before everything that is done for the
package, and nothing else in the script stops a run. They stop it exactly if a problem has been
recorded, a platform that is ruled out is true, or the package is restricted to known platforms
none of which is true. So a restriction is kept whatever is known of its platforms. -/
theorem guards_fail_closed {raw : Data} (accepted : read raw = .ok d) (w : World) :
    parse (String.join ((d.configure.sections.drop 1).take 3)) = some d.guards ∧
    parse d.generate.script = some (preamble d.package ++ (d.guards ++ d.work)) ∧
    Uses guardCommands d.guards ∧
    (∀ c ∈ directivesOf (preamble d.package ++ d.work), c.isFatal = false) ∧
    ((∃ c ∈ (executeAll w d.guards).reached, c.isFatal = true) ↔
      d.generate.errors ≠ [] ∨
      (∃ id ∈ d.unsupportedPlatforms.getD [], ∃ p, Platform.ofId? id = some p ∧
        w.isTrue p.token = true) ∨
      ((∃ id ∈ d.supportedPlatforms.getD [], ∃ p, Platform.ofId? id = some p) ∧
        ∀ id ∈ d.supportedPlatforms.getD [], ∀ p, Platform.ofId? id = some p →
          w.isTrue p.token = false)) ∧
    (d.supportedPlatforms.getD [] ≠ [] →
      (∀ id ∈ d.supportedPlatforms.getD [], ∀ p, Platform.ofId? id = some p →
        w.isTrue p.token = false) →
      executeAll w (preamble d.package ++ (d.guards ++ d.work)) =
          executeAll w (preamble d.package ++ d.guards) ∧
        ∃ c ∈ (executeAll w (preamble d.package ++ d.guards)).reached, c.isFatal = true) := by
  refine ⟨parse_guards d, parse_script (wellNamed_of_read accepted), uses_guards d, ?_, ?_, ?_⟩
  · rw [directivesOf_append, List.forall_mem_append]
    exact ⟨not_isFatal (uses_preamble d.package) (by decide), not_isFatal (uses_work d) (by decide)⟩
  · exact (isExact_executeAll w d.guards).symm.trans (stopped_guards_iff w)
  · intro listed nowhere
    have stopped := stopped_guards_of_restricted w listed nowhere
    exact ⟨execute_program_of_stopped stopped,
      (isExact_executeAll w _).mp (stopped_before stopped)⟩

def partlyKnown : Data :=
  .map [("package", .text "foo"), ("supportedPlatforms", Data.texts ["linux", "beos"])]

theorem guards_fail_closed_windows : ∃ d, read partlyKnown = .ok d ∧
    d.supportedPlatforms = some ["linux", "beos"] ∧
    executeAll ⟨fun word => word == "WIN32", fun _ => 0⟩
        (preamble d.package ++ (d.guards ++ d.work)) =
      executeAll ⟨fun word => word == "WIN32", fun _ => 0⟩ (preamble d.package ++ d.guards) := by
  have found : (read partlyKnown).toOption.map (·.supportedPlatforms) =
      some (some ["linux", "beos"]) := by decide +kernel
  obtain ⟨d, accepted, listed⟩ := exists_of_read found
  refine ⟨d, accepted, listed, ?_⟩
  obtain ⟨-, -, -, -, -, closed⟩ :=
    guards_fail_closed accepted ⟨fun word => word == "WIN32", fun _ => 0⟩
  refine (closed ?_ ?_).1
  · rw [listed]
    exact List.cons_ne_nil _ _
  · rw [listed]
    intro id mem p known
    have linux : Platform.ofId? "linux" = some .linux := by decide
    have beos : Platform.ofId? "beos" = none := by decide
    rcases List.mem_cons.mp mem with rfl | mem
    · rw [linux] at known
      cases known
      decide
    · rw [List.mem_singleton.mp mem, beos] at known
      cases known

end Description

end CMakeScript
