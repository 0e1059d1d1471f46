import CMakeScript.Proofs.CommandLine

/-!
# What the flags for talk change

A run can be asked to be verbose, and it can be asked to be quiet. Neither changes the exit code, a
file or the script: `run_differs_in_talk`. A run is compared with the one in which both flags are
off. Nothing is asked of the file system and of the reader of data.
-/

namespace CMakeScript

variable {σ : Type}

namespace Invocation

/-- The invocation with the flags for talk off. -/
def untalked (i : Invocation) : Invocation :=
  { i with options := { i.options with verbose := false, quiet := false } }

theorem goal?_eq_none_iff (directory : Path) (i : Invocation) :
    i.goal? directory = none ↔ i.options.out = some "-" := by
  unfold goal?
  split
  next output => simp [output]
  next other => split <;> simp [other]

theorem out_ne_of_goal? {directory goal : Path} {i : Invocation}
    (aim : i.goal? directory = some goal) : i.options.out ≠ some "-" := by
  rw [Ne, ← i.goal?_eq_none_iff directory, aim]
  exact Option.some_ne_none goal

theorem scriptOf_untalked (i : Invocation) (d : Description) :
    i.untalked.scriptOf d = i.scriptOf d := rfl

end Invocation

namespace Command

variable (parse : DataReader) (fs : FileSystem (StateM σ)) (directory : Path)

/-- What the generator makes of the description, if it comes to run. -/
def generated? (i : Invocation) (s : σ) : Option Generated :=
  if i.command = "generate" ∧ i.descriptionFile.isSome ∧ i.options.name.all isName then
    (loaded? parse fs i s).map fun d => (i.renamed d).generate
  else none

/-- A line for each error that the generator records, in order. -/
def warningLines (i : Invocation) (s : σ) : String :=
  match generated? parse fs i s with
  | some g => String.join (g.errors.map fun error => "Warning: " ++ error ++ "\n")
  | none => ""

def talk (i : Invocation) (s : σ) : String :=
  if i.options.verbose then warningLines parse fs i s else ""

/-- A file is to be generated without a report. -/
def isHushed (i : Invocation) : Bool :=
  i.command == "generate" && i.options.quiet && i.options.out != some "-"

/-- How a run ends in which the generator has come to run, and what it says after its warnings:
nothing, or why the script is not written. -/
def Finishes (i : Invocation) (s : σ) (g : Generated) (exit : Nat) (rest : String) : Prop :=
  exit = 0 ∧ rest = "" ∨
    exit = 5 ∧ ∃ goal reason, i.goal? directory = some goal ∧
      ((Job.deliver fs goal.text g.script).run (reading fs i s).2).1 = .error reason ∧
      rest = "Error: " ++ ("Failed to write " ++ goal.text ++ ": " ++ reason) ++ "\n"

variable {parse fs directory}

theorem reading_untalked (i : Invocation) (s : σ) : reading fs i.untalked s = reading fs i s := rfl

theorem talk_of_not_generated {i : Invocation} {s : σ} (nothing : generated? parse fs i s = none) :
    talk parse fs i s = "" := by
  unfold talk warningLines
  rw [nothing]
  split <;> rfl

/-! ### A run that generates -/

section Loaded

variable {i : Invocation} {path : String} {s : σ} {d : Description}
  (command : i.command = "generate") (given : i.descriptionFile = some path)
  (valid : i.options.name.all isName = true) (loaded : loaded? parse fs i s = some d)

include command given valid loaded

theorem generated?_loaded : generated? parse fs i s = some (i.renamed d).generate := by
  have named : i.descriptionFile.isSome = true := by rw [given]; rfl
  unfold generated?
  rw [if_pos ⟨command, named, valid⟩, loaded, Option.map_some]

theorem warnings_job :
    (i.job directory d).warnings (i.renamed d).generate.errors = talk parse fs i s := by
  unfold talk warningLines
  rw [generated?_loaded command given valid loaded]
  rfl

theorem generate_output (aim : i.goal? directory = none) :
    (generate parse fs directory i).run s =
      ({ exit := 0, output := i.scriptOf d, errors := talk parse fs i s }, (reading fs i s).2) := by
  have target := i.job_target directory d
  rw [aim] at target
  rw [generate_loaded given valid loaded, Job.run_output target,
    i.job_description directory d valid, warnings_job command given valid loaded]
  rfl

theorem generate_file {goal : Path} (aim : i.goal? directory = some goal) :
    let delivered := (Job.deliver fs goal.text (i.scriptOf d)).run (reading fs i s).2
    (generate parse fs directory i).run s =
      (match delivered.1 with
        | .ok () =>
          { exit := 0
            output := if i.options.quiet then "" else
              Job.success directory goal.text (i.renamed d).generate.errors
            errors := talk parse fs i s }
        | .error reason =>
          { exit := 5
            errors :=
              talk parse fs i s ++ ("Error: " ++ Job.writeFailure goal.text reason ++ "\n") },
        delivered.2) := by
  have target := i.job_target directory d
  have quiet : (i.job directory d).quiet = i.options.quiet := by
    simp [Invocation.job, Job.ofOptions, Target.outputText, Invocation.out_ne_of_goal? aim]
  rw [aim] at target
  rw [generate_loaded given valid loaded, Job.run_file target, i.job_description directory d valid,
    warnings_job command given valid loaded, quiet, target]
  unfold Invocation.scriptOf
  generalize (Job.deliver fs goal.text (i.renamed d).generate.script).run _ = delivered
  obtain ⟨answer, after⟩ := delivered
  cases answer <;> cases i.options.quiet <;> rfl

end Loaded

theorem exists_of_generated? {i : Invocation} {s : σ} {g : Generated}
    (h : generated? parse fs i s = some g) :
    i.command = "generate" ∧ ∃ path d, i.descriptionFile = some path ∧
      i.options.name.all isName = true ∧ loaded? parse fs i s = some d ∧
      (i.renamed d).generate = g := by
  unfold generated? at h
  split at h
  next checked =>
    obtain ⟨command, named, valid⟩ := checked
    obtain ⟨path, given⟩ := Option.isSome_iff_exists.mp named
    obtain ⟨d, loaded, made⟩ := Option.map_eq_some_iff.mp h
    exact ⟨command, path, d, given, valid, loaded, made⟩
  next => cases h

theorem generate_generated (directory : Path) {i : Invocation} {s : σ} {g : Generated}
    (h : generated? parse fs i s = some g) :
    let outcome := ((generate parse fs directory i).run s).1
    (i.options.out = some "-" → outcome.output = g.script) ∧
      ∃ rest, outcome.errors = talk parse fs i s ++ rest ∧
        Finishes fs directory i s g outcome.exit rest := by
  obtain ⟨command, path, d, given, valid, loaded, rfl⟩ := exists_of_generated? h
  intro outcome
  cases aim : i.goal? directory with
  | none =>
    have ended := generate_output command given valid loaded aim
    have same : outcome = _ := congrArg Prod.fst ended
    rw [same]
    exact ⟨fun _ => rfl, "", String.append_empty.symm, .inl ⟨rfl, rfl⟩⟩
  | some goal =>
    have ended := generate_file command given valid loaded aim
    have same : outcome = _ := congrArg Prod.fst ended
    refine ⟨fun output => absurd output (Invocation.out_ne_of_goal? aim), ?_⟩
    rw [same]
    cases delivered : ((Job.deliver fs goal.text (i.scriptOf d)).run (reading fs i s).2).1 with
    | ok => exact ⟨"", String.append_empty.symm, .inl ⟨rfl, rfl⟩⟩
    | error reason => exact ⟨_, rfl, .inr ⟨rfl, goal, reason, aim, delivered, rfl⟩⟩

/-! ### Two runs -/

/-- What the flags for talk add to a run and take from it. -/
structure AddsTalk (parse : DataReader) (fs : FileSystem (StateM σ)) (i : Invocation) (s : σ)
    (other result : Outcome × σ) : Prop where
  exit : result.1.exit = other.1.exit
  after : result.2 = other.2
  output : result.1.output = if isHushed i then "" else other.1.output
  errors : result.1.errors = talk parse fs i s ++ other.1.errors

theorem AddsTalk.nothing {i : Invocation} {s : σ} {other result : Outcome × σ}
    (same : result = other) (silent : talk parse fs i s = "")
    (empty : isHushed i = true → other.1.output = "") : AddsTalk parse fs i s other result := by
  subst same
  refine ⟨rfl, rfl, ?_, by rw [silent, String.empty_append]⟩
  split
  next hushed => exact empty hushed
  next => rfl

/-- A run in which the generator does not come to run says the same with and without the flags. -/
theorem generate_failed (directory : Path) {i : Invocation} {s : σ}
    (command : i.command = "generate") (nothing : generated? parse fs i s = none) :
    (generate parse fs directory i).run s = (generate parse fs directory i.untalked).run s ∧
      ((generate parse fs directory i.untalked).run s).1.output = "" := by
  cases given : i.descriptionFile with
  | none =>
    rw [generate_nameless given, generate_nameless (i := i.untalked) given]
    exact ⟨rfl, rfl⟩
  | some path =>
    cases valid : i.options.name.all isName with
    | false =>
      rw [generate_misnamed given valid, generate_misnamed (i := i.untalked) given valid]
      exact ⟨rfl, rfl⟩
    | true =>
      cases loaded : loaded? parse fs i s with
      | none =>
        obtain ⟨error, unloaded⟩ := exists_loadError loaded
        rw [generate_unloaded given valid unloaded,
          generate_unloaded (i := i.untalked) given valid unloaded]
        exact ⟨rfl, rfl⟩
      | some d =>
        rw [generated?_loaded command given valid loaded] at nothing
        cases nothing

theorem addsTalk_generate {i : Invocation} (command : i.command = "generate") (s : σ) :
    AddsTalk parse fs i s ((generate parse fs directory i.untalked).run s)
      ((generate parse fs directory i).run s) := by
  cases made : generated? parse fs i s with
  | none =>
    obtain ⟨same, empty⟩ := generate_failed directory command made
    exact .nothing same (talk_of_not_generated made) fun _ => empty
  | some g =>
    obtain ⟨-, path, d, given, valid, loaded, -⟩ := exists_of_generated? made
    cases aim : i.goal? directory with
    | none =>
      have heard : isHushed i = false := by
        simp [isHushed, (i.goal?_eq_none_iff directory).mp aim]
      rw [generate_output command given valid loaded aim,
        generate_output (i := i.untalked) command given valid loaded aim]
      refine ⟨rfl, rfl, ?_, String.append_empty.symm⟩
      rw [heard]
      rfl
    | some goal =>
      have hushed : isHushed i = i.options.quiet := by
        simp [isHushed, command, Invocation.out_ne_of_goal? aim]
      rw [generate_file command given valid loaded aim,
        generate_file (i := i.untalked) command given valid loaded aim, i.scriptOf_untalked,
        reading_untalked]
      generalize (Job.deliver fs goal.text (i.scriptOf d)).run (reading fs i s).2 = delivered
      obtain ⟨answer, after⟩ := delivered
      cases answer with
      | error reason => exact ⟨rfl, rfl, (ite_self _).symm, rfl⟩
      | ok =>
        refine ⟨rfl, rfl, ?_, String.append_empty.symm⟩
        rw [hushed]
        rfl

theorem addsTalk_invoke (i : Invocation) (s : σ) :
    AddsTalk parse fs i s ((invoke parse fs directory i.untalked).run s)
      ((invoke parse fs directory i).run s) := by
  by_cases command : i.command = "generate"
  · have other : invoke parse fs directory i.untalked = generate parse fs directory i.untalked :=
      invoke_generate command
    rw [invoke_generate command, other]
    exact addsTalk_generate command s
  · have same : invoke parse fs directory i.untalked = invoke parse fs directory i := by
      simp [invoke, Invocation.untalked, command]
    have silent : generated? parse fs i s = none := by simp [generated?, command]
    rw [same]
    exact .nothing rfl (talk_of_not_generated silent) fun hushed => by
      simp [isHushed, command] at hushed

/-- On the standard output there is the script and nothing else, if there is one. -/
theorem output_generate {i : Invocation} (command : i.command = "generate")
    (out : i.options.out = some "-") (s : σ) :
    ((generate parse fs directory i).run s).1.output =
      (generated? parse fs i s).elim "" (·.script) := by
  cases made : generated? parse fs i s with
  | none =>
    obtain ⟨same, empty⟩ := generate_failed directory command made
    rw [same, empty]
    rfl
  | some g => exact (generate_generated directory made).1 out

/-- Without the flags, a run in which the generator has run says nothing but why it has failed. -/
theorem errors_untalked {i : Invocation} {s : σ} {g : Generated}
    (made : generated? parse fs i s = some g) :
    let other := ((invoke parse fs directory i.untalked).run s).1
    Finishes fs directory i s g other.exit other.errors := by
  obtain ⟨command, -⟩ := exists_of_generated? made
  have ran : invoke parse fs directory i.untalked = generate parse fs directory i.untalked :=
    invoke_generate command
  have silent : talk parse fs i.untalked s = "" := rfl
  obtain ⟨-, rest, said, ended⟩ := generate_generated directory (i := i.untalked) made
  rw [silent, String.empty_append] at said
  subst said
  rw [ran]
  exact ended

variable (parse fs directory) in
/-- Two runs whose invocations differ in the flags for talk at most end with the same code and leave
the same files. On the standard output a script stands alone; on the standard error a verbose run
begins with its warnings, and that is all by which two runs differ there. -/
theorem run_differs_in_talk {args others : List String}
    (same : (Invocation.ofArgs args).untalked = (Invocation.ofArgs others).untalked) (s : σ) :
    let i := Invocation.ofArgs args
    let j := Invocation.ofArgs others
    let first := (run parse fs directory args).run s
    let second := (run parse fs directory others).run s
    (first.1.exit = second.1.exit ∧ first.2 = second.2) ∧
      (i.options.out = some "-" → first.1.output = second.1.output ∧
        (i.command = "generate" → first.1.output = (generated? parse fs i s).elim "" (·.script))) ∧
      (∃ rest, first.1.errors = talk parse fs i s ++ rest ∧
        second.1.errors = talk parse fs j s ++ rest ∧
        ∀ g, generated? parse fs i s = some g → Finishes fs directory i s g first.1.exit rest) ∧
      (i.command = "generate" → i.options.quiet = true → i.options.out ≠ some "-" →
        first.1.output = "") := by
  intro i j first second
  have one : AddsTalk parse fs i s ((invoke parse fs directory i.untalked).run s) first :=
    addsTalk_invoke i s
  have two : AddsTalk parse fs j s ((invoke parse fs directory i.untalked).run s) second := by
    rw [same]
    exact addsTalk_invoke j s
  refine ⟨⟨one.exit.trans two.exit.symm, one.after.trans two.after.symm⟩, ?_, ?_, ?_⟩
  · intro out
    have outs : j.options.out = some "-" := by
      have options := congrArg (fun i => i.options.out) same
      exact options.symm.trans out
    have heard : isHushed i = false := by simp [isHushed, out]
    have also : isHushed j = false := by simp [isHushed, outs]
    refine ⟨?_, fun command => ?_⟩
    · rw [one.output, two.output, heard, also]
    · have ran : first = (generate parse fs directory i).run s := by
        rw [← invoke_generate command]
        rfl
      rw [ran]
      exact output_generate command out s
  · refine ⟨_, one.errors, two.errors, fun g made => ?_⟩
    rw [one.exit]
    exact errors_untalked made
  · intro command quiet aside
    have hushed : isHushed i = true := by simp [isHushed, command, quiet, aside]
    rw [one.output, if_pos hushed]

def erring : FileTree :=
  (({} : FileTree).write [] "/work/rock.yaml" "package: foo\nerrors: [boom]\n".toUTF8.toList).2

def brief : List String := ["generate", "-o", "rock.yaml/x", "rock.yaml"]

def loud : List String := ["--verbose", "generate", "rock.yaml", "-q", "--out", "rock.yaml/x"]

/-- There is no directory for the script. A verbose run says so after its warning. -/
theorem run_differs_in_talk_unwritable :
    let fs := FileTree.fileSystem ["work"]
    let first := (run Yaml.parse fs ["work"] brief).run erring
    let second := (run Yaml.parse fs ["work"] loud).run erring
    (Invocation.ofArgs brief).untalked = (Invocation.ofArgs loud).untalked ∧
      second.1.exit = 5 ∧ first.2 = second.2 ∧
      first.1.errors = "Error: Failed to write /work/rock.yaml/x: " ++
        "EEXIST: file already exists, mkdir '/work/rock.yaml'\n" ∧
      second.1.errors = "Warning: boom\n" ++ first.1.errors := by
  intro fs first second
  have same : (Invocation.ofArgs brief).untalked = (Invocation.ofArgs loud).untalked := by decide
  have silent : talk Yaml.parse fs (Invocation.ofArgs brief) erring = "" := rfl
  have warned : talk Yaml.parse fs (Invocation.ofArgs loud) erring = "Warning: boom\n" := by
    decide +kernel
  have failed : first.1.exit = 5 := by decide +kernel
  have unwritten : first.1.errors = "Error: Failed to write /work/rock.yaml/x: " ++
      "EEXIST: file already exists, mkdir '/work/rock.yaml'\n" := by decide +kernel
  obtain ⟨⟨exit, after⟩, -, ⟨rest, said, also, -⟩, -⟩ :=
    run_differs_in_talk Yaml.parse fs ["work"] same erring
  rw [silent, String.empty_append] at said
  rw [warned, ← said] at also
  exact ⟨same, exit.symm.trans failed, after, unwritten, also⟩

end Command

end CMakeScript
