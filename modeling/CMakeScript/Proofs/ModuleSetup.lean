import CMakeScript.Proofs.Execution
import CMakeScript.Proofs.Invariants
import CMakeScript.Proofs.ModuleReading
import CMakeScript.Script

/-!
# The modules that a run sets up

The last four sections of a script set up modules. A run of them comes to the rules of the default
modules and then to those of the modules that only the platforms that are true have, in the order in
which they were added: `setUp_eq`. So it makes no difference when a default module was added:
`modules_set_up`.
-/

namespace CMakeScript

open Lexer Statement Program

/-! ### Runs that are not stopped -/

section Runs

variable (w : World)

theorem andThen_unstopped (first : List Directive) (second : Execution) :
    Execution.andThen ⟨first, false⟩ second = ⟨first ++ second.reached, second.stopped⟩ := rfl

theorem executeAll_flatMap {α : Type} {body : α → List Statement} {reached : α → List Directive}
    (items : List α) (each : ∀ item ∈ items, executeAll w (body item) = ⟨reached item, false⟩) :
    executeAll w (items.flatMap body) = ⟨items.flatMap reached, false⟩ := by
  induction items with
  | nil => rfl
  | cons item rest ih =>
    have later := ih fun other mem => each other (List.mem_cons_of_mem _ mem)
    rw [List.flatMap_cons, executeAll_append, each item List.mem_cons_self, later,
      andThen_unstopped, List.flatMap_cons]

theorem times_unstopped (reached : List Directive) (n : Nat) :
    Execution.times ⟨reached, false⟩ n = ⟨(List.replicate n reached).flatten, false⟩ := by
  induction n with
  | zero => rfl
  | succ n ih => rw [Execution.times, ih, andThen_unstopped, List.replicate_succ, List.flatten_cons]

/-- A run goes through the blocks of the platforms that are true. -/
theorem executeAll_platformBlocks {α β : Type} {parts : α → List β} {body : β → List Statement}
    {reached : β → List Directive} (each : ∀ part, executeAll w (body part) = ⟨reached part, false⟩)
    (entries : List (Platform × α)) :
    executeAll w (platformBlocks parts body entries) =
      ⟨(entries.filter fun entry => w.isTrue entry.1.token).flatMap fun entry =>
        (parts entry.2).flatMap reached, false⟩ := by
  have block (entry : Platform × α) :
      executeAll w (if (parts entry.2).isEmpty then []
        else [.conditional [entry.1.token] ((parts entry.2).flatMap body)]) =
      ⟨if w.isTrue entry.1.token then (parts entry.2).flatMap reached else [], false⟩ := by
    have inside := executeAll_flatMap w (parts entry.2) fun part _ => each part
    cases empty : (parts entry.2).isEmpty with
    | true =>
      rw [List.isEmpty_iff] at empty
      simp [empty, executeAll]
    | false =>
      rw [if_neg Bool.false_ne_true, executeAll_singleton, execute, holds_token, inside]
      split <;> rfl
  rw [platformBlocks, executeAll_flatMap w entries fun entry _ => block entry]
  congr 1
  induction entries with
  | nil => rfl
  | cons entry rest ih =>
    rw [List.flatMap_cons, ih, List.filter_cons]
    cases w.isTrue entry.1.token <;> simp

end Runs

/-! ### The rules of a module -/

def scriptRule (name : String) : Directive :=
  ⟨"install", ["FILES", reference (Variable.sources name), "DESTINATION",
    Section.scriptDirectory name, "RENAME", Section.scriptFile name]⟩

/-- What a run comes to for a native module. It searches as often as there are libraries. -/
def libraryRules (w : World) (name : String) : List Directive :=
  ⟨"add_library", [name, reference (Variable.sources name)]⟩ ::
    (List.replicate (w.rounds ["LIBRARY", reference (Variable.libraries name)])
      ⟨"find_library",
        [reference "LIBRARY", reference "LIBRARY", reference (Variable.libdirs name)]⟩ ++
    [⟨"target_include_directories", [name, "PRIVATE", reference (Variable.incdirs name)]⟩,
     ⟨"target_compile_definitions", [name, "PRIVATE", reference (Variable.defines name)]⟩,
     ⟨"target_link_libraries", [name, "PRIVATE", reference (Variable.libraries name)]⟩,
     ⟨"install", ["TARGETS", name, "DESTINATION", reference "INSTALL_CMOD"]⟩])

theorem executeAll_scriptInstall (w : World) (name : String) :
    executeAll w [scriptInstall name] = ⟨[scriptRule name], false⟩ := rfl

theorem executeAll_nativeLibrary (w : World) (name : String) :
    executeAll w (nativeLibrary name) = ⟨libraryRules w name, false⟩ := by
  have search (n : Nat) : (executeAll w [Program.directive "find_library"
      [reference "LIBRARY", reference "LIBRARY", reference (Variable.libdirs name)]]).times n =
      ⟨List.replicate n ⟨"find_library",
        [reference "LIBRARY", reference "LIBRARY", reference (Variable.libdirs name)]⟩, false⟩ := by
    rw [← List.flatten_replicate_singleton, ← times_unstopped]
    rfl
  -- Only the loop is gone through more than once, so it is cut out of the statements around it.
  have split : nativeLibrary name = (nativeLibrary name).take 1 ++
      ([.loop ["LIBRARY", reference (Variable.libraries name)]
        [Program.directive "find_library"
          [reference "LIBRARY", reference "LIBRARY", reference (Variable.libdirs name)]]
        ["LIBRARY"]] ++ (nativeLibrary name).drop 2) := rfl
  rw [split, executeAll_append, executeAll_append, executeAll_singleton, execute, search]
  rfl

/-! ### The sections that set up modules -/

namespace Configuration

def moduleText (c : Configuration) : String := String.join (c.sections.drop 7)

/-- How a run of the sections that set up modules goes. -/
def setUp (c : Configuration) (w : World) : Option Execution :=
  (parse c.moduleText).map (executeAll w)

/-- The names that are added on every platform or on one that is true, first the default ones. A
platform adds no default name again. -/
def namesOn (w : World) (defaults : List String) (entries : List (Platform × List String)) :
    List String :=
  defaults ++ (entries.filter fun entry => w.isTrue entry.1.token).flatMap fun entry =>
    entry.2.filter fun name => name ∉ defaults

def targets (c : Configuration) : List String :=
  c.scripts ++ c.platformScripts.entries.flatMap (·.2) ++
    (c.natives ++ c.platformNatives.entries.flatMap (·.2))

def TargetsNamed (c : Configuration) : Prop := ∀ name ∈ c.targets, isName name = true

instance (c : Configuration) : Decidable c.TargetsNamed :=
  inferInstanceAs (Decidable (∀ name ∈ c.targets, isName name = true))

/-- What the sections that set up modules are to do. -/
def modules (c : Configuration) : List Statement :=
  Program.scripts c.scripts ++
    (Program.platformScripts c.platformScripts.entries c.scripts ++
    (Program.natives c.natives ++
    Program.platformNatives c.platformNatives.entries c.natives))

theorem arePlain_modules (c : Configuration) : arePlain c.modules = true := by
  simp only [modules, arePlain_append, Bool.and_eq_true]
  refine ⟨arePlain_scripts _, ?_, ?_, ?_⟩
  · exact arePlain_platformBlocks _ (fun _ => rfl) _
  · exact arePlain_flatMap arePlain_nativeLibrary _
  · exact arePlain_platformBlocks _ arePlain_nativeLibrary _

theorem parse_moduleText {c : Configuration} (named : c.TargetsNamed) :
    parse c.moduleText = some c.modules := by
  have listed (name : String) (mem : name ∈ c.scripts ∨ (∃ entry ∈ c.platformScripts.entries,
      name ∈ entry.2) ∨ name ∈ c.natives ∨ ∃ entry ∈ c.platformNatives.entries, name ∈ entry.2) :
      isName name = true := by
    apply named
    simpa [targets, or_assoc] using mem
  have scripts := reads_scripts fun name mem => listed name (.inl mem)
  have platformScripts : Reads .line
      (Section.platformScripts c.platformScripts.entries c.scripts).toList _ .line :=
    reads_platformScripts fun entry mem name inside =>
      listed name (.inr (.inl ⟨entry, mem, inside⟩))
  have natives := reads_natives fun name mem => listed name (.inr (.inr (.inl mem)))
  have platformNatives : Reads .line
      (Section.platformNatives c.platformNatives.entries c.natives).toList _ .line :=
    reads_platformNatives fun entry mem name inside =>
      listed name (.inr (.inr (.inr ⟨entry, mem, inside⟩)))
  have whole := scripts.append (platformScripts.append (natives.append platformNatives))
  have text : c.moduleText.toList = (Section.scripts c.scripts).toList ++
      ((Section.platformScripts c.platformScripts.entries c.scripts).toList ++
      ((Section.natives c.natives).toList ++
      (Section.platformNatives c.platformNatives.entries c.natives).toList)) := by
    simp [moduleText, sections]
  rw [← text, ← directivesOf_append, ← directivesOf_append, ← directivesOf_append] at whole
  exact parse_of_read c.arePlain_modules (whole.read rfl)

theorem executeAll_added {body : String → List Statement} {reached : String → List Directive}
    (w : World) (each : ∀ name, executeAll w (body name) = ⟨reached name, false⟩)
    (defaults : List String) (entries : List (Platform × List String)) :
    executeAll w (defaults.flatMap body ++
        platformBlocks (Section.platformOnly defaults) body entries) =
      ⟨(namesOn w defaults entries).flatMap reached, false⟩ := by
  have kept (names : List String) :
      Section.platformOnly defaults names = names.filter fun name => name ∉ defaults := by
    simp [Section.platformOnly]
  rw [executeAll_append, executeAll_flatMap w defaults fun name _ => each name,
    executeAll_platformBlocks w each, andThen_unstopped, namesOn, List.flatMap_append,
    List.flatMap_assoc]
  simp only [kept]

theorem setUp_eq {c : Configuration} (named : c.TargetsNamed) (w : World) :
    c.setUp w = some
      ⟨(namesOn w c.scripts c.platformScripts.entries).map scriptRule ++
        (namesOn w c.natives c.platformNatives.entries).flatMap (libraryRules w), false⟩ := by
  have scripts := executeAll_added w (executeAll_scriptInstall w) c.scripts
    c.platformScripts.entries
  have natives := executeAll_added w (executeAll_nativeLibrary w) c.natives
    c.platformNatives.entries
  have split : c.modules =
      (c.scripts.flatMap (fun name => [scriptInstall name]) ++
        Program.platformScripts c.platformScripts.entries c.scripts) ++
      (c.natives.flatMap nativeLibrary ++
        Program.platformNatives c.platformNatives.entries c.natives) := by
    rw [modules, Program.scripts, Program.natives, List.map_eq_flatMap, List.append_assoc]
  rw [setUp, parse_moduleText named, Option.map_some, split, executeAll_append,
    Program.platformScripts, scripts, Program.platformNatives, natives, andThen_unstopped,
    List.map_eq_flatMap]

/-! ### The order of default modules and those of platforms -/

def addsDefault : Call → Bool
  | .addScript _ .everywhere | .addNative _ .everywhere => true
  | _ => false

def addsForPlatform : Call → Bool
  | .addScript _ (.only _) | .addNative _ (.only _) => true
  | _ => false

/-- The same default modules are added in the same order, and the same ones for platforms. How both
are mixed may differ, and so may everything else. -/
def AddSame (actions others : List Action) : Prop :=
  (actions.flatMap Action.calls).filter addsDefault =
      (others.flatMap Action.calls).filter addsDefault ∧
    (actions.flatMap Action.calls).filter addsForPlatform =
      (others.flatMap Action.calls).filter addsForPlatform

/-- Calls say the same if those do of which a filter drops only calls that say nothing. -/
theorem filterMap_eq_of_filter {α : Type} {part : Call → Option α} {keep : Call → Bool}
    {calls others : List Call} (same : calls.filter keep = others.filter keep)
    (silent : ∀ call, keep call = false → part call = none) :
    calls.filterMap part = others.filterMap part := by
  have kept (all : List Call) : (all.filter keep).filterMap part = all.filterMap part := by
    rw [List.filterMap_filter]
    congr 1
    funext call
    cases hit : keep call with
    | true => rfl
    | false => exact (silent call hit).symm
  rw [← kept calls, same, kept others]

theorem parts_of_not_addsDefault (call : Call) (h : addsDefault call = false) :
    call.script? = none ∧ call.native? = none := by
  cases call with
  | addScript name scope | addNative name scope =>
    cases scope with
    | everywhere => cases h
    | only platform => exact ⟨rfl, rfl⟩
  | _ => exact ⟨rfl, rfl⟩

theorem parts_of_not_addsForPlatform (call : Call) (h : addsForPlatform call = false) :
    call.platformScript? = none ∧ call.platformNative? = none := by
  cases call with
  | addScript name scope | addNative name scope =>
    cases scope with
    | everywhere => exact ⟨rfl, rfl⟩
    | only platform => cases h
  | _ => exact ⟨rfl, rfl⟩

theorem moduleText_of_addSame {actions others : List Action} (same : AddSame actions others)
    (package : String) :
    (({ package } : Configuration).perform actions).moduleText =
      (({ package } : Configuration).perform others).moduleText := by
  obtain ⟨default, platform⟩ := same
  have scripts := filterMap_eq_of_filter default fun call h => (parts_of_not_addsDefault call h).1
  have natives := filterMap_eq_of_filter default fun call h => (parts_of_not_addsDefault call h).2
  have platformScripts := filterMap_eq_of_filter platform fun call h =>
    (parts_of_not_addsForPlatform call h).1
  have platformNatives := filterMap_eq_of_filter platform fun call h =>
    (parts_of_not_addsForPlatform call h).2
  rw [perform_eq_run, perform_eq_run]
  show String.join [_, _, _, _] = String.join [_, _, _, _]
  rw [run_scripts, run_scripts, run_natives, run_natives, run_platformScripts, run_platformScripts,
    run_platformNatives, run_platformNatives, scripts, natives, platformScripts, platformNatives]

/-- Every run of the sections that set up modules comes to the rules of the modules that the
configuration holds, first the default ones and then those that only true platforms have. Nothing
changes if a default module is added before or after one of a platform. -/
theorem modules_set_up {package : String} {actions : List Action}
    (named : (({ package } : Configuration).perform actions).TargetsNamed) (w : World) :
    let c := ({ package } : Configuration).perform actions
    c.setUp w = some
        ⟨(namesOn w c.scripts c.platformScripts.entries).map scriptRule ++
          (namesOn w c.natives c.platformNatives.entries).flatMap (libraryRules w), false⟩ ∧
      ∀ others, AddSame actions others →
        (({ package } : Configuration).perform others).setUp w = c.setUp w := by
  intro c
  refine ⟨setUp_eq named w, ?_⟩
  intro others same
  show (parse _).map _ = (parse c.moduleText).map _
  rw [← moduleText_of_addSame same package]

/-- The module `a` is there by default and for Linux, which shares its token with FreeBSD. -/
def mixed : List Action :=
  [.single (.addScript "a" (.only "linux")), .single (.addScript "b.c" (.only "freebsd")),
   .single (.addScript "a" .everywhere), .single (.addScript "b.c" (.only "linux")),
   .single (.addScript "d" (.only "windows")), .single (.addScript "d" (.only "solaris")),
   .single (.addScript "b.c" (.only "linux")), .single (.addNative "n" (.only "linux")),
   .single (.addNative "a" (.only "linux")), .single (.addNative "n" .everywhere)]

def defaultsFirst : List Action :=
  [.single (.addScript "a" .everywhere), .single (.addNative "n" .everywhere),
   .single (.addScript "a" (.only "linux")), .single (.addScript "b.c" (.only "freebsd")),
   .single (.addScript "b.c" (.only "linux")), .single (.addScript "d" (.only "windows")),
   .single (.addScript "d" (.only "solaris")), .single (.addScript "b.c" (.only "linux")),
   .single (.addNative "n" (.only "linux")), .single (.addNative "a" (.only "linux"))]

/-- A world in which the tokens of Linux and FreeBSD are true and there are two libraries. -/
def unixWorld : World := ⟨fun token => token == "UNIX", fun _ => 2⟩

theorem modules_set_up_mixed :
    (({ package := "foo" } : Configuration).perform mixed).TargetsNamed ∧
      AddSame mixed defaultsFirst ∧
      (({ package := "foo" } : Configuration).perform defaultsFirst).setUp unixWorld =
        some ⟨["a", "b.c", "b.c", "b.c"].map scriptRule ++
          ["n", "a"].flatMap (libraryRules unixWorld), false⟩ := by
  have named : (({ package := "foo" } : Configuration).perform mixed).TargetsNamed := by decide
  have same : AddSame mixed defaultsFirst := ⟨rfl, rfl⟩
  refine ⟨named, same, ?_⟩
  obtain ⟨ran, anyOrder⟩ := modules_set_up named unixWorld
  rw [anyOrder defaultsFirst same, ran]
  rfl

end Configuration

end CMakeScript
