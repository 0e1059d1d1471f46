import CMakeScript.Proofs.Guards
import CMakeScript.Proofs.Reached
import CMakeScript.Proofs.VariableNames

/-!
# How often a module is set up

A run of the script sets up a module once if it is a default module, and otherwise once on each
platform that lists it and is true. Several platforms may be true at once, and some share a token:
`set_up_once_iff` says when nothing is set up twice.
-/

namespace CMakeScript

open Program Statement

/-- The directive declares the library of the native module. -/
def declares (name : String) (c : Directive) : Bool :=
  c.name == "add_library" && c.arguments.head? == some name

/-- The directive installs the sources of the script module. -/
def installs (name : String) (c : Directive) : Bool :=
  c.name == "install" && c.arguments.take 2 == ["FILES", reference (Variable.sources name)]

theorem name_of_declares {name : String} {c : Directive} (h : declares name c = true) :
    c.name = "add_library" := by
  rw [declares, Bool.and_eq_true] at h
  exact eq_of_beq h.1

theorem name_of_installs {name : String} {c : Directive} (h : installs name c = true) :
    c.name = "install" := by
  rw [installs, Bool.and_eq_true] at h
  exact eq_of_beq h.1

theorem Uses.avoids {commands : List String} {statements : List Statement}
    {kind : Directive → Bool} {command : String} (h : Uses commands statements)
    (named : ∀ {c : Directive}, kind c = true → c.name = command) (other : command ∉ commands) :
    Avoids kind statements := by
  intro c mem
  cases hit : kind c with
  | false => rfl
  | true =>
    have used := h c mem
    rw [named hit] at used
    exact absurd used other

theorem uses_assignments (entries : List (String × List String)) :
    Uses ["set"] (assignments entries) :=
  .map (fun _ => uses_directive (by decide)) _

theorem uses_platformAssignments (entries : List (Platform × List (String × List String))) :
    Uses ["set", "if", "endif"] (platformAssignments entries) :=
  .platformBlocks (fun _ => uses_directive (by decide)) (by decide) (by decide) _

variable {w : World}

/-! ### The directives of a single module -/

theorem uses_nativeRest (name : String) : Uses ["foreach", "find_library", "endforeach",
    "target_include_directories", "target_compile_definitions", "target_link_libraries",
    "install"] (nativeLibrary name).tail :=
  uses_of_names ["foreach", "find_library", "endforeach", "target_include_directories",
    "target_compile_definitions", "target_link_libraries", "install"] rfl (by decide)

theorem hits_declares_nativeLibrary (name n : String) :
    hits w (declares name) (nativeLibrary n) = if n = name then 1 else 0 := by
  have alone : Harmless [Program.directive "add_library" [n, reference (Variable.sources n)]] :=
    not_isFatal (uses_directive (List.mem_singleton_self _)) (by decide)
  have first : hits w (declares name)
      [Program.directive "add_library" [n, reference (Variable.sources n)]] =
        if n = name then 1 else 0 := by
    rw [Program.directive, hits_directive]
    simp [declares]
  have rest : hits w (declares name) (nativeLibrary n).tail = 0 :=
    hits_eq_zero ((uses_nativeRest n).avoids name_of_declares (by decide))
  have split : nativeLibrary n =
      [Program.directive "add_library" [n, reference (Variable.sources n)]] ++
        (nativeLibrary n).tail := rfl
  rw [split, hits_append alone, first, rest, Nat.add_zero]

theorem hits_installs_scriptInstall (name n : String) :
    hits w (installs name) [scriptInstall n] = if n = name then 1 else 0 := by
  rw [scriptInstall, Program.directive, hits_directive]
  simp [installs, reference_inj, Variable.sources_inj]

theorem avoids_installs_nativeLibrary (name n : String) :
    Avoids (installs name) (nativeLibrary n) := by
  intro c mem
  simp only [nativeLibrary, Program.directive, directivesOf, directives, List.append_nil,
    List.cons_append, List.nil_append, List.mem_cons, List.not_mem_nil, or_false] at mem
  rcases mem with rfl | rfl | rfl | rfl | rfl | rfl | rfl | rfl
  all_goals simp [installs]

theorem avoids_installs_installCopy (name : String) : Avoids (installs name) installCopy := by
  have lua : Variable.installLua ≠ Variable.sources name :=
    (Variable.sources_ne name (by decide)).symm
  have lib : Variable.installLib ≠ Variable.sources name :=
    (Variable.sources_ne name (by decide)).symm
  have conf : Variable.installConf ≠ Variable.sources name :=
    (Variable.sources_ne name (by decide)).symm
  intro c mem
  simp only [installCopy, installList, Program.directive, directivesOf, directives,
    List.append_nil, List.cons_append, List.nil_append, List.mem_cons, List.not_mem_nil,
    or_false] at mem
  rcases mem with rfl | rfl | rfl | rfl | rfl
  all_goals simp [installs, reference_inj, lua, lib, conf]

/-! ### The directives of a description -/

/-- No list of modules names a module twice. -/
def Settings.Distinct (s : Settings) : Prop := s.scriptNames.Nodup ∧ s.nativeNames.Nodup

instance (s : Settings) : Decidable s.Distinct := inferInstanceAs (Decidable (_ ∧ _))

/-- How often the names that are kept on the default list or a list of a true platform come up: once
by default, and otherwise once on each of the platforms. -/
def timesListed (w : World) (names : Settings → List String) (d : Description) (name : String) :
    Nat :=
  if name ∈ names d.settings then 1
  else d.known.countP fun entry => w.isTrue entry.1.token && (names entry.2).contains name

theorem count_add_countP (names : Settings → List String) {d : Description}
    (shared : (names d.settings).Nodup) (name : String) :
    (names d.settings).count name +
      (d.known.map fun entry => (entry.1, names entry.2)).countP (fun entry =>
        w.isTrue entry.1.token &&
          (Section.platformOnly (names d.settings) entry.2).contains name) =
      timesListed w names d name := by
  have kept (entry : Platform × Settings) :
      (Section.platformOnly (names d.settings) (names entry.2)).contains name =
        ((names entry.2).contains name && !(names d.settings).contains name) := by
    rw [Bool.eq_iff_iff]
    simp [Section.platformOnly]
  rw [List.countP_map, shared.count, timesListed]
  simp only [Function.comp_def, kept]
  by_cases default : name ∈ names d.settings
  · simp [default]
  · simp [default]

section Work

variable {d : Description}

/-- What holds of the parts of the work of a description, one after another. -/
theorem avoids_work {kind : Directive → Bool} : Avoids kind d.work ↔
    Avoids kind (assignments d.bound) ∧
    Avoids kind (platformAssignments (d.known.map fun entry => (entry.1, entry.2.bound))) ∧
    Avoids kind installCopy ∧
    Avoids kind (scripts d.settings.scriptNames) ∧
    Avoids kind (platformScripts (d.known.map fun entry => (entry.1, entry.2.scriptNames))
      d.settings.scriptNames) ∧
    Avoids kind (natives d.settings.nativeNames) ∧
    Avoids kind (platformNatives (d.known.map fun entry => (entry.1, entry.2.nativeNames))
      d.settings.nativeNames) := by
  simp only [Description.work, Description.modules, avoids_append]

theorem harmless_work (d : Description) : Harmless d.work :=
  not_isFatal (uses_work d) (by decide)

theorem hits_work (kind : Directive → Bool) : hits w kind d.work =
    hits w kind (assignments d.bound) +
    (hits w kind (platformAssignments (d.known.map fun entry => (entry.1, entry.2.bound))) +
    (hits w kind installCopy +
    (hits w kind (scripts d.settings.scriptNames) +
    (hits w kind (platformScripts (d.known.map fun entry => (entry.1, entry.2.scriptNames))
      d.settings.scriptNames) +
    (hits w kind (natives d.settings.nativeNames) +
    hits w kind (platformNatives (d.known.map fun entry => (entry.1, entry.2.nativeNames))
      d.settings.nativeNames)))))) := by
  obtain ⟨bound, overridden, copied, scripts, platformScripts, natives, -⟩ :=
    avoids_work.mp (harmless_work d)
  rw [Description.work, Description.modules, hits_append bound, hits_append overridden,
    hits_append copied, hits_append scripts, hits_append platformScripts, hits_append natives]

/-- No list of modules of the description names a module twice. -/
structure Description.Distinct (d : Description) : Prop where
  settings : d.settings.Distinct
  overrides : ∀ entry ∈ d.overrides, entry.2.Distinct

instance (d : Description) : Decidable d.Distinct :=
  decidable_of_iff (d.settings.Distinct ∧ ∀ entry ∈ d.overrides, entry.2.Distinct)
    ⟨fun h => ⟨h.1, h.2⟩, fun h => ⟨h.settings, h.overrides⟩⟩

theorem Description.Distinct.known (distinct : d.Distinct) :
    ∀ entry ∈ d.known, entry.2.Distinct :=
  Description.known_of_overrides distinct.overrides

theorem nodup_platformOnly {names : Settings → List String} (defaults : List String)
    (distinct : ∀ entry ∈ d.known, (names entry.2).Nodup) :
    ∀ entry ∈ d.known.map fun entry => (entry.1, names entry.2),
      (Section.platformOnly defaults entry.2).Nodup := by
  intro entry mem
  obtain ⟨known, inside, rfl⟩ := List.mem_map.mp mem
  exact (distinct known inside).filter _

theorem hits_declares_work (distinct : d.Distinct) (name : String) :
    hits w (declares name) d.work = timesListed w Settings.nativeNames d name := by
  obtain ⟨-, -, -, -, -, harmless, blocks⟩ := avoids_work.mp (harmless_work d)
  have copied : Uses ["install"] installCopy :=
    uses_of_names (List.replicate 5 "install") rfl (by decide)
  have installed : Uses ["install"] (scripts d.settings.scriptNames) :=
    .map (fun _ => uses_directive (by decide)) _
  have added : Uses ["install", "if", "endif"]
      (platformScripts (d.known.map fun entry => (entry.1, entry.2.scriptNames))
        d.settings.scriptNames) :=
    .platformBlocks (fun _ => uses_directive (by decide)) (by decide) (by decide) _
  rw [hits_work, hits_eq_zero ((uses_assignments _).avoids name_of_declares (by decide)),
    hits_eq_zero ((uses_platformAssignments _).avoids name_of_declares (by decide)),
    hits_eq_zero (copied.avoids name_of_declares (by decide)),
    hits_eq_zero (installed.avoids name_of_declares (by decide)),
    hits_eq_zero (added.avoids name_of_declares (by decide))]
  have shared := hits_flatMap_names (w := w) (hits_declares_nativeLibrary name) harmless
  have single := hits_platformBlocks (w := w) (hits_declares_nativeLibrary name)
    (nodup_platformOnly d.settings.nativeNames fun entry mem => (distinct.known entry mem).2) blocks
  rw [natives, shared, platformNatives, single]
  simp only [Nat.zero_add]
  exact count_add_countP Settings.nativeNames distinct.settings.2 name

theorem hits_installs_work (distinct : d.Distinct) (name : String) :
    hits w (installs name) d.work = timesListed w Settings.scriptNames d name := by
  obtain ⟨-, -, -, harmless, blocks, -, -⟩ := avoids_work.mp (harmless_work d)
  have built : Avoids (installs name) (natives d.settings.nativeNames) :=
    avoids_flatMap.mpr fun n _ => avoids_installs_nativeLibrary name n
  have added : Avoids (installs name)
      (platformNatives (d.known.map fun entry => (entry.1, entry.2.nativeNames))
        d.settings.nativeNames) :=
    avoids_platformBlocks (avoids_installs_nativeLibrary name) (fun _ => rfl) rfl _
  rw [hits_work, hits_eq_zero ((uses_assignments _).avoids name_of_installs (by decide)),
    hits_eq_zero ((uses_platformAssignments _).avoids name_of_installs (by decide)),
    hits_eq_zero (avoids_installs_installCopy name), hits_eq_zero built, hits_eq_zero added]
  rw [scripts, List.map_eq_flatMap] at harmless ⊢
  have shared := hits_flatMap_names (w := w) (hits_installs_scriptInstall name) harmless
  have single := hits_platformBlocks (w := w) (hits_installs_scriptInstall name)
    (nodup_platformOnly d.settings.scriptNames fun entry mem => (distinct.known entry mem).1) blocks
  rw [shared, platformScripts, single]
  simp only [Nat.zero_add, Nat.add_zero]
  exact count_add_countP Settings.scriptNames distinct.settings.1 name

theorem uses_start (d : Description) : Uses (projectCommands ++ guardCommands)
    (preamble d.package ++ d.guards) :=
  .append (fun c mem => List.mem_append_left _ (uses_preamble d.package c mem))
    fun c mem => List.mem_append_right _ (uses_guards d c mem)

/-- What does not come up before the work for the package comes up in it, unless the guards stop
the run. -/
theorem hits_program {kind : Directive → Bool}
    (start : Avoids kind (preamble d.package ++ d.guards)) : hits w kind d.program =
      if (executeAll w d.guards).stopped then 0 else hits w kind d.work := by
  cases stopped : (executeAll w d.guards).stopped with
  | true =>
    rw [if_pos rfl, hits, Description.execute_program_of_stopped stopped]
    exact hits_eq_zero start
  | false =>
    have preamble := (uses_preamble d.package)
    have before : (executeAll w (Program.preamble d.package ++ d.guards)).stopped = false := by
      have harmless : Harmless (Program.preamble d.package) := not_isFatal preamble (by decide)
      rw [executeAll_append, Execution.stopped_andThen, harmless.not_stopped, stopped]
      rfl
    have none : hits w kind (Program.preamble d.package ++ d.guards) = 0 := hits_eq_zero start
    unfold hits at none ⊢
    rw [Description.program, ← List.append_assoc, executeAll_append, Execution.andThen, before,
      if_neg Bool.false_ne_true, if_neg Bool.false_ne_true, List.countP_append, none, Nat.zero_add]

/-! ### What is set up twice -/

/-- Two platforms are true at once and list a module that is not a default one. -/
def Clash (w : World) (names : Settings → List String) (d : Description) : Prop :=
  ∃ first ∈ d.known, ∃ second ∈ d.known, first.1 ≠ second.1 ∧
    w.isTrue first.1.token = true ∧ w.isTrue second.1.token = true ∧
    ∃ name ∈ names first.2, name ∈ names second.2 ∧ name ∉ names d.settings

theorem countP_le_one_iff {α : Type} {p : α → Bool} {items : List α} (distinct : items.Nodup) :
    items.countP p ≤ 1 ↔
      ∀ a ∈ items, ∀ b ∈ items, p a = true → p b = true → a = b := by
  rw [List.countP_eq_length_filter]
  have filtered := distinct.filter p
  constructor
  · intro short a ha b hb pa pb
    have inA := List.mem_filter.mpr ⟨ha, pa⟩
    have inB := List.mem_filter.mpr ⟨hb, pb⟩
    obtain ⟨c, single⟩ := List.length_eq_one_iff.mp
      (Nat.le_antisymm short (List.length_pos_of_mem inA))
    rw [single, List.mem_singleton] at inA inB
    rw [inA, inB]
  · intro same
    match cut : items.filter p with
    | [] => exact Nat.zero_le 1
    | [_] => exact Nat.le_refl 1
    | a :: b :: rest =>
      have ha : a ∈ items.filter p := by simp [cut]
      have hb : b ∈ items.filter p := by simp [cut]
      obtain ⟨inA, pa⟩ := List.mem_filter.mp ha
      obtain ⟨inB, pb⟩ := List.mem_filter.mp hb
      rw [cut, same a inA b inB pa pb] at filtered
      exact absurd List.mem_cons_self (List.nodup_cons.mp filtered).1

instance (w : World) (names : Settings → List String) (d : Description) :
    Decidable (Clash w names d) :=
  inferInstanceAs (Decidable (∃ first ∈ d.known, _))

theorem timesListed_le_one_iff (w : World) (names : Settings → List String) (d : Description) :
    (∀ name, timesListed w names d name ≤ 1) ↔ ¬ Clash w names d := by
  have distinct : d.known.Nodup := (Description.known_nodup d).of_map
  constructor
  · rintro once ⟨first, inFirst, second, inSecond, ne, firstTrue, secondTrue, name, listed, again,
      added⟩
    have count := once name
    rw [timesListed, if_neg added, countP_le_one_iff distinct] at count
    have same := count first inFirst second inSecond (by simp [firstTrue, listed])
      (by simp [secondTrue, again])
    exact ne (congrArg Prod.fst same)
  · intro apart name
    unfold timesListed
    split
    next => exact Nat.le_refl 1
    next added =>
      rw [countP_le_one_iff distinct]
      intro first inFirst second inSecond listed again
      simp only [Bool.and_eq_true, List.contains_iff_mem] at listed again
      by_cases same : first.1 = second.1
      · exact List.inj_on_of_nodup_map (Description.known_nodup d) inFirst inSecond same
      · exact absurd ⟨first, inFirst, second, inSecond, same, listed.1, again.1, name, listed.2,
          again.2, added⟩ apart

end Work

namespace Description

variable {d : Description}

theorem hits_declares_program (distinct : d.Distinct) (name : String) :
    hits w (declares name) d.program = if (executeAll w d.guards).stopped then 0
      else timesListed w Settings.nativeNames d name := by
  rw [hits_program ((uses_start d).avoids name_of_declares (by decide)),
    hits_declares_work distinct]

theorem hits_installs_program (distinct : d.Distinct) (name : String) :
    hits w (installs name) d.program = if (executeAll w d.guards).stopped then 0
      else timesListed w Settings.scriptNames d name := by
  rw [hits_program ((uses_start d).avoids name_of_installs (by decide)),
    hits_installs_work distinct]

/-- No run of the script of a description that has been read declares the library of a native module
twice or installs a script module twice, exactly if the guards stop the run or no two platforms that
are true list a module that is not a default one. -/
theorem set_up_once_iff {raw : Data} (accepted : read raw = .ok d) (distinct : d.Distinct)
    (w : World) : ∃ statements, parse d.generate.script = some statements ∧
      ((∀ name, hits w (declares name) statements ≤ 1 ∧ hits w (installs name) statements ≤ 1) ↔
        (executeAll w d.guards).stopped = true ∨
          (¬ Clash w Settings.nativeNames d ∧ ¬ Clash w Settings.scriptNames d)) := by
  refine ⟨d.program, parse_script (wellNamed_of_read accepted), ?_⟩
  simp only [hits_declares_program distinct, hits_installs_program distinct]
  rw [← timesListed_le_one_iff, ← timesListed_le_one_iff, ← forall_and]
  cases (executeAll w d.guards).stopped with
  | true => simp
  | false => simp

/-- Two platforms that share no token have a native module in common. -/
def separate : Data :=
  .map [("package", .text "foo"), ("nativeModules", .list [.map [("name", .text "core"),
      ("sources", .text "core.c")]]),
    ("platforms", .map
      [("linux", .map [("nativeModules", .list [.map [("name", .text "core"),
          ("sources", .text "linux.c")], .map [("name", .text "os"), ("sources", .text "os.c")]])]),
       ("windows", .map [("nativeModules", .list [.map [("name", .text "os"),
          ("sources", .text "os.c")]])])])]

theorem set_up_once_unix : ∃ d, read separate = .ok d ∧ d.Distinct ∧
    ∃ statements, parse d.generate.script = some statements ∧
      ∀ name, hits ⟨fun word => word == "UNIX", fun _ => 0⟩ (declares name) statements ≤ 1 ∧
        hits ⟨fun word => word == "UNIX", fun _ => 0⟩ (installs name) statements ≤ 1 := by
  have found : (read separate).toOption.map (fun d => (decide d.Distinct,
      decide (Clash ⟨fun word => word == "UNIX", fun _ => 0⟩ Settings.nativeNames d),
      decide (Clash ⟨fun word => word == "UNIX", fun _ => 0⟩ Settings.scriptNames d))) =
      some (true, false, false) := by decide +kernel
  obtain ⟨d, accepted, decided⟩ := exists_of_read found
  simp only [Prod.mk.injEq, decide_eq_true_eq, decide_eq_false_iff_not] at decided
  obtain ⟨distinct, apart⟩ := decided
  obtain ⟨statements, read, same⟩ :=
    set_up_once_iff accepted distinct ⟨fun word => word == "UNIX", fun _ => 0⟩
  exact ⟨d, accepted, distinct, statements, read, same.mpr (.inr apart)⟩

def sharedToken : Data :=
  .map [("package", .text "foo"), ("platforms", .map
    [("linux", .map [("nativeModules", .list [.map [("name", .text "core"),
        ("sources", .text "core.c")]])]),
     ("freebsd", .map [("nativeModules", .list [.map [("name", .text "core"),
        ("sources", .text "core.c")]])])])]

/-- The library of a module is declared twice if two platforms with one token list it. -/
theorem shared_token_declares_twice : ∃ d, read sharedToken = .ok d ∧ d.Distinct ∧
    ∃ statements, parse d.generate.script = some statements ∧
      hits ⟨fun word => word == "UNIX", fun _ => 0⟩ (declares "core") statements = 2 := by
  have found : (read sharedToken).toOption.map (fun d => (decide d.Distinct,
      (executeAll ⟨fun word => word == "UNIX", fun _ => 0⟩ d.guards).stopped,
      timesListed ⟨fun word => word == "UNIX", fun _ => 0⟩ Settings.nativeNames d "core")) =
      some (true, false, 2) := by decide +kernel
  obtain ⟨d, accepted, decided⟩ := exists_of_read found
  simp only [Prod.mk.injEq, decide_eq_true_eq] at decided
  obtain ⟨distinct, goesOn, twice⟩ := decided
  refine ⟨d, accepted, distinct, d.program, parse_script (wellNamed_of_read accepted), ?_⟩
  rw [hits_declares_program distinct, goesOn, twice]
  rfl

end Description

end CMakeScript
