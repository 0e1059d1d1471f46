import CMakeScript.Command.Run
import CMakeScript.Proofs.FileChanges
import CMakeScript.Yaml.Document

/-!
# What a run of the program leaves behind

A run changes at most one file, and only if it succeeds: `run_changes_goal`. The file is the one to
which the arguments lead, and afterwards its content is the script. Of the file system only its laws
are used, and of the reader of data nothing, so this holds for any notation of descriptions.
-/

namespace CMakeScript

variable {σ : Type}

theorem run_seq {α β : Type} (first : StateM σ α) (next : α → StateM σ β) (s : σ) :
    (first >>= next).run s = (next (first.run s).1).run (first.run s).2 := rfl

/-! ### Writing a script -/

namespace Job

variable {fs : FileSystem (StateM σ)} {file : σ → Path → Option (List UInt8)}

theorem file_deliver (lawful : fs.Lawful file) {path : Path} (proper : path.IsProper)
    (text : String) (s : σ) :
    file ((deliver fs path.text text).run s).2 =
      if ((deliver fs path.text text).run s).1.isOk then
        Function.update (file s) path (some text.toUTF8.toList)
      else file s := by
  have kept := lawful.makeDirectory_keeps (Path.parent path.text) s
  rw [deliver, run_seq]
  generalize (fs.makeDirectory (Path.parent path.text)).run s = made at kept ⊢
  obtain ⟨answer, between⟩ := made
  cases answer with
  | error reason => exact kept
  | ok =>
    -- The directory has changed no file, so what is left is what the write does to its state.
    rw [← kept]
    cases written : ((fs.write path.text text).run between).1 with
    | error reason => exact lawful.write_keeps proper text between written
    | ok => exact lawful.write_sets proper text between written

theorem isOk_deliver (path text : String) (s : σ) :
    let made := (fs.makeDirectory (Path.parent path)).run s
    ((deliver fs path text).run s).1.isOk =
      (made.1.isOk && ((fs.write path text).run made.2).1.isOk) := by
  rw [deliver, run_seq]
  generalize (fs.makeDirectory (Path.parent path)).run s = made
  obtain ⟨answer, between⟩ := made
  cases answer <;> rfl

theorem run_output {directory : Path} {job : Job} (goal : job.target = .output) (s : σ) :
    (job.run fs directory).run s =
      ({ generated := job.description.generate, delivery := .ok ()
         output := job.description.generate.script
         warnings := job.warnings job.description.generate.errors }, s) := by
  rw [Job.run, goal]
  rfl

theorem run_file {directory : Path} {job : Job} {path : String} (goal : job.target = .file path)
    (s : σ) :
    let delivered := (deliver fs path job.description.generate.script).run s
    (job.run fs directory).run s =
      ({ generated := job.description.generate, delivery := delivered.1
         output := if delivered.1.isOk && !job.quiet then
           success directory path job.description.generate.errors else ""
         warnings := job.warnings job.description.generate.errors }, delivered.2) := by
  rw [Job.run, goal]
  rfl

end Job

/-! ### What an invocation asks for -/

namespace Invocation

/-- The description under the name that the invocation gives to its package. -/
def renamed (i : Invocation) (d : Description) : Description :=
  { d with package := i.options.name.getD d.package }

def scriptOf (i : Invocation) (d : Description) : String := (i.renamed d).generate.script

/-- The file that the invocation is to write, if there is one: where the options say, otherwise
beside the description. -/
def goal? (directory : Path) (i : Invocation) : Option Path :=
  if i.options.out = some "-" then none
  else if i.options.out.getD "" = "" then
    some ((Path.resolve directory (i.descriptionFile.getD "")).dropLast ++ ["CMakeLists.txt"])
  else some (Path.resolve directory (i.options.out.getD ""))

theorem isProper_goal {directory goal : Path} (proper : directory.IsProper) {i : Invocation}
    (h : i.goal? directory = some goal) : goal.IsProper := by
  unfold goal? at h
  split at h
  · cases h
  · split at h
    · obtain rfl := Option.some.inj h
      have beside := Path.isProper_resolve proper (i.descriptionFile.getD "")
      exact Path.isProper_concat (Path.isProper_dropLast beside) (by decide)
    · obtain rfl := Option.some.inj h
      exact Path.isProper_resolve proper _

def job (directory : Path) (i : Invocation) (d : Description) : Job :=
  Job.ofOptions directory i.options d (i.descriptionFile.getD "")

theorem job_target (directory : Path) (i : Invocation) (d : Description) :
    (i.job directory d).target =
      match i.goal? directory with
      | none => .output
      | some goal => .file goal.text := by
  show Job.targetOf directory i.options _ = _
  unfold Job.targetOf goal?
  cases i.options.out with
  | none => simp [Job.scriptName]
  | some text =>
    by_cases output : text = "-"
    · simp [output, Option.filter, Target.ofText, Target.outputText]
    · by_cases empty : text = ""
      · simp [empty, Option.filter, Job.scriptName]
      · simp [output, empty, Option.filter, Target.ofText, Target.outputText]

theorem job_description (directory : Path) {i : Invocation} (d : Description)
    (valid : i.options.name.all isName = true) : (i.job directory d).description = i.renamed d := by
  unfold job Job.ofOptions renamed
  cases given : i.options.name with
  | none => rfl
  | some name =>
    have named : isName name = true := by simpa [given] using valid
    have filled : name.isEmpty = false := by
      rw [isName, Bool.and_eq_true, Bool.not_eq_true'] at named
      exact named.1
    simp [filled]

end Invocation

/-! ### The exit code and the files -/

namespace Command

variable (parse : DataReader) (fs : FileSystem (StateM σ)) (directory : Path)

/-- The code of the first check that fails, and 0 if there is none. -/
def firstFailure (checks : List (Bool × Nat)) : Nat :=
  match checks.find? (·.1) with
  | some check => check.2
  | none => 0

/-- What reading the description file comes to, and the state after that. -/
def reading (i : Invocation) (s : σ) : Reading × σ := (fs.read (i.descriptionFile.getD "")).run s

/-- The description that the file holds, if it is there, its text is understood, and the data are
those of a description. -/
def loaded? (i : Invocation) (s : σ) : Option Description :=
  match (reading fs i s).1 with
  | .content octets => do
    let data ← (parse (Text.Utf8.decode octets)).toOption
    (Description.read data).toOption
  | .missing | .unreadable _ => none

/-- There is a script to be written to a file, and its directory cannot be made or the file cannot be
written. -/
def failsToWrite (i : Invocation) (s : σ) : Bool :=
  match loaded? parse fs i s, i.goal? directory with
  | some d, some goal =>
    let made := (fs.makeDirectory (Path.parent goal.text)).run (reading fs i s).2
    !(made.1.isOk && ((fs.write goal.text (i.scriptOf d)).run made.2).1.isOk)
  | _, _ => false

/-- What can go wrong, in the order in which it is looked at, with the codes for it. -/
def checks (i : Invocation) (s : σ) : List (Bool × Nat) :=
  [(i.descriptionFile.isNone, 2), (!i.options.name.all isName, 2),
   ((loaded? parse fs i s).isNone, 1), (failsToWrite parse fs directory i s, 5)]

/-- How generating a script ends. -/
structure Generates (file : σ → Path → Option (List UInt8)) (i : Invocation) (s : σ)
    (outcome : Outcome) (after : σ) : Prop where
  exit : outcome.exit = firstFailure (checks parse fs directory i s)
  failed : outcome.exit ≠ 0 → file after = file s ∧ outcome.output = ""
  done : outcome.exit = 0 → ∃ d, loaded? parse fs i s = some d ∧
    match i.goal? directory with
    | none => outcome.output = i.scriptOf d ∧ file after = file s
    | some goal =>
      file after = Function.update (file s) goal (some (i.scriptOf d).toUTF8.toList)

variable {parse fs directory} {file : σ → Path → Option (List UInt8)}

theorem toOption_mapError {ε δ α : Type} (f : ε → δ) (x : Except ε α) :
    (x.mapError f).toOption = x.toOption := by
  cases x <;> rfl

theorem toOption_load (i : Invocation) (s : σ) :
    (Description.load parse (reading fs i s).1).toOption = loaded? parse fs i s := by
  unfold Description.load loaded?
  cases (reading fs i s).1 with
  | missing | unreadable reason => rfl
  | content octets =>
    dsimp only
    cases parse (Text.Utf8.decode octets) with
    | error reason => rfl
    | ok data => exact toOption_mapError LoadError.invalid (Description.read data)

theorem load_of_loaded {i : Invocation} {s : σ} {d : Description}
    (loaded : loaded? parse fs i s = some d) :
    Description.load parse (reading fs i s).1 = .ok d := by
  rw [← toOption_load] at loaded
  cases found : Description.load parse (reading fs i s).1 with
  | error error =>
    rw [found] at loaded
    cases loaded
  | ok other =>
    rw [found] at loaded
    exact congrArg Except.ok (Option.some.inj loaded)

theorem exists_loadError {i : Invocation} {s : σ} (unloaded : loaded? parse fs i s = none) :
    ∃ error, Description.load parse (reading fs i s).1 = .error error := by
  rw [← toOption_load] at unloaded
  cases found : Description.load parse (reading fs i s).1 with
  | error error => exact ⟨error, rfl⟩
  | ok d =>
    rw [found] at unloaded
    cases unloaded

theorem generate_nameless {i : Invocation} (missing : i.descriptionFile = none) (s : σ) :
    (generate parse fs directory i).run s = ({
      exit := 2
      errors := "Error: Description file required\n" ++
        "Usage: rockgen generate <description> [-o <file>]\n" }, s) := by
  rw [generate, missing]
  rfl

theorem generate_misnamed {i : Invocation} {path : String} (given : i.descriptionFile = some path)
    (invalid : i.options.name.all isName = false) (s : σ) :
    (generate parse fs directory i).run s = ({
      exit := 2
      errors := "Error: Invalid package name '" ++ i.options.name.getD "" ++ "'\n" }, s) := by
  rw [generate, given]
  dsimp only
  rw [invalid]
  rfl

theorem generate_unloaded {i : Invocation} {path : String} (given : i.descriptionFile = some path)
    (valid : i.options.name.all isName = true) {s : σ} {error : LoadError}
    (unloaded : Description.load parse (reading fs i s).1 = .error error) :
    (generate parse fs directory i).run s = ({
      exit := 1
      errors := "Error: " ++ error.message path ++ "\n" }, (reading fs i s).2) := by
  unfold reading at unloaded ⊢
  rw [given, Option.getD_some] at unloaded ⊢
  rw [generate, given]
  dsimp only
  rw [if_pos valid, run_seq, unloaded]
  rfl

theorem generate_loaded {i : Invocation} {path : String} (given : i.descriptionFile = some path)
    (valid : i.options.name.all isName = true) {s : σ} {d : Description}
    (loaded : loaded? parse fs i s = some d) :
    let result := ((i.job directory d).run fs directory).run (reading fs i s).2
    (generate parse fs directory i).run s =
      (.ofResult (i.job directory d).target result.1, result.2) := by
  have load := load_of_loaded loaded
  unfold reading at load ⊢
  unfold Invocation.job
  rw [given, Option.getD_some] at load ⊢
  rw [generate, given]
  dsimp only
  rw [if_pos valid, run_seq, load]
  rfl

theorem failsToWrite_output {i : Invocation} {s : σ} (goal : i.goal? directory = none) :
    failsToWrite parse fs directory i s = false := by
  unfold failsToWrite
  rw [goal]
  split
  next same => cases same
  next => rfl

theorem failsToWrite_file {i : Invocation} {s : σ} {d : Description} {goal : Path}
    (loaded : loaded? parse fs i s = some d) (aim : i.goal? directory = some goal) :
    failsToWrite parse fs directory i s =
      !((Job.deliver fs goal.text (i.scriptOf d)).run (reading fs i s).2).1.isOk := by
  unfold failsToWrite
  rw [loaded, aim, Job.isOk_deliver]

/-- Where the checks before the last one are passed, it is left whether the script is written. -/
theorem firstFailure_loaded {i : Invocation} {path : String} (given : i.descriptionFile = some path)
    (valid : i.options.name.all isName = true) {s : σ} {d : Description}
    (loaded : loaded? parse fs i s = some d) :
    firstFailure (checks parse fs directory i s) =
      if failsToWrite parse fs directory i s then 5 else 0 := by
  unfold checks
  rw [given, valid, loaded]
  cases failsToWrite parse fs directory i s <;> rfl

theorem generates_loaded (lawful : fs.Lawful file) (proper : directory.IsProper) {i : Invocation}
    {path : String} (given : i.descriptionFile = some path)
    (valid : i.options.name.all isName = true) {s : σ} {d : Description}
    (loaded : loaded? parse fs i s = some d) :
    Generates parse fs directory file i s ((generate parse fs directory i).run s).1
      ((generate parse fs directory i).run s).2 := by
  have kept : file (reading fs i s).2 = file s := lawful.read_keeps _ s
  have script : (i.job directory d).description.generate.script = i.scriptOf d := by
    rw [i.job_description directory d valid]
    rfl
  have target := i.job_target directory d
  have code : firstFailure (checks parse fs directory i s) =
      if failsToWrite parse fs directory i s then 5 else 0 := firstFailure_loaded given valid loaded
  rw [generate_loaded given valid loaded]
  cases aim : i.goal? directory with
  | none =>
    rw [aim] at target
    rw [failsToWrite_output aim] at code
    rw [Job.run_output target, script]
    refine ⟨code.symm, fun failed => absurd rfl failed, fun _ => ⟨d, loaded, ?_⟩⟩
    rw [aim]
    exact ⟨rfl, kept⟩
  | some goal =>
    have changed := Job.file_deliver lawful (i.isProper_goal proper aim) (i.scriptOf d)
      (reading fs i s).2
    rw [aim] at target
    rw [failsToWrite_file loaded aim] at code
    rw [Job.run_file target, script]
    generalize (Job.deliver fs goal.text (i.scriptOf d)).run (reading fs i s).2 = delivered
      at code changed ⊢
    obtain ⟨answer, after⟩ := delivered
    cases answer with
    | error reason => exact ⟨code.symm, fun _ => ⟨changed.trans kept, rfl⟩, nofun⟩
    | ok =>
      refine ⟨code.symm, fun failed => absurd rfl failed, fun _ => ⟨d, loaded, ?_⟩⟩
      have written : file after = Function.update (file (reading fs i s).2) goal _ := changed
      rw [aim]
      rwa [kept] at written

variable (parse) in
theorem generates (lawful : fs.Lawful file) (proper : directory.IsProper) (i : Invocation) (s : σ) :
    Generates parse fs directory file i s ((generate parse fs directory i).run s).1
      ((generate parse fs directory i).run s).2 := by
  -- One case for each check, in their order: what fails in one has been passed in those below it.
  cases given : i.descriptionFile with
  | none =>
    have code : firstFailure (checks parse fs directory i s) = 2 := by
      rw [checks, given]
      rfl
    rw [generate_nameless given]
    exact ⟨code.symm, fun _ => ⟨rfl, rfl⟩, nofun⟩
  | some path =>
    cases valid : i.options.name.all isName with
    | false =>
      have code : firstFailure (checks parse fs directory i s) = 2 := by
        rw [checks, given, valid]
        rfl
      rw [generate_misnamed given valid]
      exact ⟨code.symm, fun _ => ⟨rfl, rfl⟩, nofun⟩
    | true =>
      cases loaded : loaded? parse fs i s with
      | none =>
        have code : firstFailure (checks parse fs directory i s) = 1 := by
          rw [checks, given, valid, loaded]
          rfl
        obtain ⟨error, unloaded⟩ := exists_loadError loaded
        rw [generate_unloaded given valid unloaded]
        exact ⟨code.symm, fun _ => ⟨lawful.read_keeps _ s, rfl⟩, nofun⟩
      | some d => exact generates_loaded lawful proper given valid loaded

theorem firstFailure_mem (all : List (Bool × Nat)) : firstFailure all ∈ 0 :: all.map (·.2) := by
  unfold firstFailure
  split
  next check found =>
    have mem := List.mem_of_find?_eq_some found
    exact List.mem_cons_of_mem _ (List.mem_map_of_mem mem)
  next => exact List.mem_cons_self

theorem Generates.code {i : Invocation} {s after : σ} {outcome : Outcome}
    (h : Generates parse fs directory file i s outcome after) : outcome.exit ∈ [0, 1, 2, 5] := by
  have code := firstFailure_mem (checks parse fs directory i s)
  rw [← h.exit] at code
  simp only [checks, List.map_cons, List.map_nil, List.mem_cons, List.not_mem_nil,
    or_false] at code ⊢
  omega

/-- Commands that generate nothing have nothing to do with files. -/
theorem invoke_other {i : Invocation} (other : i.command ≠ "generate") (s : σ) :
    ∃ outcome : Outcome, (invoke parse fs directory i).run s = (outcome, s) ∧
      (outcome.exit = 0 ∨ outcome.exit = 2 ∧ outcome.output = "") := by
  unfold invoke
  split
  · exact ⟨_, rfl, .inl rfl⟩
  · split
    · exact ⟨_, rfl, .inl rfl⟩
    · split
      · exact ⟨_, rfl, .inl rfl⟩
      · exact ⟨_, rfl, .inr ⟨rfl, rfl⟩⟩

theorem invoke_generate {i : Invocation} (h : i.command = "generate") :
    invoke parse fs directory i = generate parse fs directory i := by
  simp [invoke, h]

variable (parse) in
/-- A run ends with one of four codes, and changes no file and prints nothing if it fails. Only a
script that is generated changes a file, and this is the one that it is meant for. -/
theorem run_changes_goal (lawful : fs.Lawful file) (proper : directory.IsProper)
    (args : List String) (s : σ) :
    let i := Invocation.ofArgs args
    let outcome := ((run parse fs directory args).run s).1
    let after := ((run parse fs directory args).run s).2
    outcome.exit ∈ [0, 1, 2, 5] ∧
      (outcome.exit ≠ 0 → file after = file s ∧ outcome.output = "") ∧
      (i.command ≠ "generate" → file after = file s) ∧
      (i.command = "generate" → Generates parse fs directory file i s outcome after) := by
  intro i outcome after
  by_cases command : i.command = "generate"
  · have same : (outcome, after) = (generate parse fs directory i).run s := by
      rw [← invoke_generate command]
      rfl
    have ended : Generates parse fs directory file i s outcome after := by
      have all := generates parse lawful proper i s
      rwa [← same] at all
    exact ⟨ended.code, ended.failed, fun other => absurd command other, fun _ => ended⟩
  · obtain ⟨other, ended, code⟩ := invoke_other command s
    have said : outcome = other := congrArg Prod.fst ended
    have left : after = s := congrArg Prod.snd ended
    rw [said, left]
    refine ⟨?_, ?_, fun _ => rfl, fun generates => absurd generates command⟩
    · rcases code with succeeded | ⟨failed, -⟩
      · simp [succeeded]
      · simp [failed]
    · intro failed
      exact ⟨rfl, (code.resolve_left failed).2⟩

def packed : FileTree :=
  (({} : FileTree).write [] "/work/rock.yaml" "package: foo\n".toUTF8.toList).2

/-- An option takes the argument that comes after it, and the directory of the script is made. -/
def nested : List String := ["-n", "bar", "generate", "-o", "out/x/../y.txt", "rock.yaml"]

theorem run_changes_goal_nested :
    (FileTree.fileSystem ["work"]).Lawful FileTree.file? ∧ Path.IsProper ["work"] ∧
      ∃ d, Description.load Yaml.parse (packed.read ["work"] "rock.yaml") = .ok d ∧
        ((run Yaml.parse (FileTree.fileSystem ["work"]) ["work"] nested).run packed).2.file? =
          Function.update packed.file? ["work", "out", "y.txt"]
            (some ({ d with package := "bar" } : Description).generate.script.toUTF8.toList) := by
  have lawful := FileTree.lawful_fileSystem ["work"]
  have proper : Path.IsProper ["work"] := by decide
  obtain ⟨-, -, -, generated⟩ := run_changes_goal Yaml.parse lawful proper nested packed
  have ended := generated rfl
  have succeeded : firstFailure (checks Yaml.parse (FileTree.fileSystem ["work"]) ["work"]
      (Invocation.ofArgs nested) packed) = 0 := by decide +kernel
  obtain ⟨d, loaded, changed⟩ := ended.done (ended.exit.trans succeeded)
  have goal : (Invocation.ofArgs nested).goal? ["work"] = some ["work", "out", "y.txt"] := by
    decide +kernel
  rw [goal] at changed
  exact ⟨lawful, proper, d, load_of_loaded loaded, changed⟩

end Command

end CMakeScript
