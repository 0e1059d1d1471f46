import CMakeScript.Command.Invocation

/-!
# Invocations and the order of the arguments

Options may stand anywhere among the arguments, and behind an option that takes a value the next
argument is this value, whatever it looks like. `ofArgs_order_free` says what an invocation is
without going through the arguments one by one: it depends on what is given, and not on where the
options stand.
-/

namespace CMakeScript

namespace Flag

/-- The two ways to write an option. -/
def spellings : Flag → List String
  | help => ["-h", "--help"]
  | version => ["-v", "--version"]
  | verbose => ["-V", "--verbose"]
  | quiet => ["-q", "--quiet"]
  | out => ["-o", "--out"]
  | name => ["-n", "--name"]

theorem ofText?_eq_some_iff {text : String} {flag : Flag} :
    ofText? text = some flag ↔ text ∈ flag.spellings := by
  unfold ofText?
  cases flag <;> grind [spellings]

end Flag

namespace Options

/-- The options with one more argument, given the argument behind it. -/
def add (o : Options) (arg : String × String) : Options where
  verbose := o.verbose || arg.1 ∈ Flag.verbose.spellings
  quiet := o.quiet || arg.1 ∈ Flag.quiet.spellings
  out := if arg.1 ∈ Flag.out.spellings then some arg.2 else o.out
  name := if arg.1 ∈ Flag.name.spellings then some arg.2 else o.name

theorem getLast?_filter_cons (p : String → Bool) (arg : String × String)
    (rest : List (String × String)) (first : Option String) :
    (((arg :: rest).filter (p ·.1)).map (·.2)).getLast?.or first =
      ((rest.filter (p ·.1)).map (·.2)).getLast?.or (if p arg.1 then some arg.2 else first) := by
  rw [List.filter_cons]
  cases p arg.1 with
  | false => rfl
  | true =>
    rw [if_pos rfl, if_pos rfl, List.map_cons, List.getLast?_cons, Option.some_or]
    cases ((rest.filter (p ·.1)).map (·.2)).getLast? <;> rfl

/-- A flag stays when it has been given, and the last value of an option counts. -/
theorem foldl_add (o : Options) (args : List (String × String)) :
    args.foldl add o =
      { verbose := o.verbose || args.any (·.1 ∈ Flag.verbose.spellings)
        quiet := o.quiet || args.any (·.1 ∈ Flag.quiet.spellings)
        out := ((args.filter (·.1 ∈ Flag.out.spellings)).map (·.2)).getLast?.or o.out
        name := ((args.filter (·.1 ∈ Flag.name.spellings)).map (·.2)).getLast?.or o.name } := by
  induction args generalizing o with
  | nil => simp
  | cons arg rest ih =>
    have out := getLast?_filter_cons (· ∈ Flag.out.spellings) arg rest o.out
    have name := getLast?_filter_cons (· ∈ Flag.name.spellings) arg rest o.name
    rw [List.foldl_cons, ih, out, name]
    simp [add, Bool.or_assoc]

end Options

namespace Invocation

/-! ### What the arguments say -/

/-- The argument is an option that takes the next argument as its value. -/
def takesValue (arg : String) : Bool :=
  arg ∈ Flag.out.spellings ∨ arg ∈ Flag.name.spellings

/-- The argument in a place is the value of the option before it, which is no value itself. -/
def isValue (args : List String) : Nat → Bool
  | 0 => false
  | place + 1 => !isValue args place && args[place]?.any takesValue

/-- The arguments that are no values, each with the argument behind it. Behind the last one there is
the empty text. -/
def standing (args : List String) : List (String × String) :=
  (args.zipIdx.filter fun arg => !isValue args arg.2).map fun arg =>
    (arg.1, args[arg.2 + 1]?.getD "")

/-- The command that an argument asks for instead of all others. -/
def asked? (arg : String) : Option String :=
  if arg ∈ Flag.help.spellings then some "help"
  else if arg ∈ Flag.version.spellings then some "version"
  else none

/-- The first request for help or for the version. -/
def request? (args : List String) : Option String :=
  (standing args).findSome? fun arg => asked? arg.1

/-- The arguments that name a command or a file. -/
def positionals (args : List String) : List String :=
  ((standing args).map (·.1)).filter fun arg => arg ≠ "" ∧ arg.toList.head? ≠ some '-'

def isGiven (flag : Flag) (args : List String) : Bool :=
  (standing args).any fun arg => arg.1 ∈ flag.spellings

/-- The values given with an option, in order. -/
def values (flag : Flag) (args : List String) : List String :=
  ((standing args).filter fun arg => arg.1 ∈ flag.spellings).map (·.2)

/-- What the arguments say if there is no request among them. -/
def ofParts (args : List String) : Invocation where
  command := (positionals args)[0]?.getD ""
  descriptionFile := (positionals args)[1]?
  options :=
    { verbose := isGiven .verbose args
      quiet := isGiven .quiet args
      out := (values .out args).getLast?
      name := (values .name args).getLast? }

/-! ### The arguments one by one -/

/-- Behind arguments that leave no value to be taken, it goes on as at the beginning. -/
theorem isValue_append {front rest : List String}
    (fresh : isValue (front ++ rest) front.length = false) (place : Nat) :
    isValue (front ++ rest) (front.length + place) = isValue rest place := by
  induction place with
  | zero => exact fresh
  | succ place ih =>
    rw [← Nat.add_assoc, isValue, ih, isValue, List.getElem?_append_right (Nat.le_add_right _ _),
      Nat.add_sub_cancel_left]

theorem standing_append {front rest : List String}
    (fresh : isValue (front ++ rest) front.length = false) :
    standing (front ++ rest) =
      ((front.zipIdx.filter fun arg => !isValue (front ++ rest) arg.2).map fun arg =>
        (arg.1, (front ++ rest)[arg.2 + 1]?.getD "")) ++ standing rest := by
  have behind (place : Nat) : (front ++ rest)[front.length + place + 1]? = rest[place + 1]? := by
    rw [Nat.add_assoc, List.getElem?_append_right (Nat.le_add_right _ _), Nat.add_sub_cancel_left]
  unfold standing
  rw [List.zipIdx_append, List.filter_append, List.map_append, Nat.zero_add,
    List.zipIdx_eq_map_add (i := front.length), List.filter_map, List.map_map]
  simp only [Function.comp_def, behind, isValue_append fresh]

theorem standing_cons (arg : String) (rest : List String) :
    standing (arg :: rest) =
      (arg, rest.headD "") :: standing (if takesValue arg then rest.tail else rest) := by
  cases takes : takesValue arg with
  | false =>
    have fresh : isValue ([arg] ++ rest) 1 = false := by simp [isValue, takes]
    have cut := @standing_append [arg] rest fresh
    rw [List.singleton_append] at cut
    rw [cut]
    cases rest <;> simp [isValue]
  | true =>
    cases rest with
    | nil => simp [standing, isValue]
    | cons value more =>
      -- The value is a value whatever it looks like, so it takes none itself.
      have fresh : isValue ([arg, value] ++ more) 2 = false := by simp [isValue, takes]
      have cut := @standing_append [arg, value] more fresh
      simpa [isValue, takes] using cut

theorem isPositional_iff {arg : String} :
    isPositional arg = true ↔ arg ≠ "" ∧ arg.toList.head? ≠ some '-' := by
  rw [isPositional, Ne, ← String.toList_eq_nil_iff]
  cases arg.toList <;> simp

theorem ofText?_of_isPositional {arg : String} (h : isPositional arg = true) :
    Flag.ofText? arg = none := by
  cases read : Flag.ofText? arg with
  | none => rfl
  | some flag =>
    have mem := Flag.ofText?_eq_some_iff.mp read
    have dashed : ∀ text ∈ flag.spellings, isPositional text = false := by cases flag <;> decide
    rw [dashed arg mem] at h
    cases h

theorem addPositional_with (i : Invocation) (options : Options) (arg : String) :
    { i with options }.addPositional arg = { i.addPositional arg with options } := by
  unfold addPositional
  split
  · rfl
  · split <;> rfl

/-- The invocation with one more argument, given the argument behind it. -/
def add (i : Invocation) (arg : String × String) : Invocation :=
  { (if isPositional arg.1 then i.addPositional arg.1 else i) with options := i.options.add arg }

/-- An argument that is no value counts on its own, and it takes a value along if it needs one. -/
theorem addArgs_cons (i : Invocation) (arg : String) (rest : List String) :
    i.addArgs (arg :: rest) =
      match asked? arg with
      | some command => { command }
      | none =>
        (i.add (arg, rest.headD "")).addArgs (if takesValue arg then rest.tail else rest) := by
  unfold asked? takesValue add Options.add
  simp only [← Flag.ofText?_eq_some_iff]
  rw [addArgs.eq_def i]
  dsimp only
  by_cases positional : isPositional arg = true
  · have kept := addPositional_with i i.options arg
    rw [if_pos positional, if_pos positional, ofText?_of_isPositional positional]
    simp [← kept]
  · rw [if_neg positional, if_neg positional]
    cases Flag.ofText? arg with
    | none => simp
    | some flag => cases flag <;> cases rest <;> simp [addArgs]

theorem addArgs_eq_foldl (i : Invocation) (args : List String) :
    i.addArgs args =
      match request? args with
      | some command => { command }
      | none => (standing args).foldl add i := by
  -- An option may take a value along, so what is left can be shorter by two.
  induction total : args.length using Nat.strongRecOn generalizing i args with
  | ind size ih =>
    cases args with
    | nil => rfl
    | cons arg rest =>
      have less : (if takesValue arg then rest.tail else rest).length < size := by
        rw [← total, List.length_cons]
        split
        · rw [List.length_tail]
          omega
        · exact Nat.lt_succ_self _
      have later := ih _ less (i.add (arg, rest.headD "")) _ rfl
      rw [addArgs_cons, request?, standing_cons, List.findSome?_cons, List.foldl_cons]
      cases asked? arg with
      | some command => rfl
      | none => exact later

/-! ### The parts of an invocation -/

theorem foldl_addPositional_with (i : Invocation) (options : Options) (args : List String) :
    args.foldl addPositional { i with options } =
      { args.foldl addPositional i with options } := by
  induction args generalizing i with
  | nil => rfl
  | cons arg rest ih => rw [List.foldl_cons, addPositional_with, ih, List.foldl_cons]

/-- Options and positional arguments do not get in each other's way. -/
theorem foldl_add (i : Invocation) (args : List (String × String)) :
    args.foldl add i =
      { ((args.map (·.1)).filter isPositional).foldl addPositional i with
        options := args.foldl Options.add i.options } := by
  induction args generalizing i with
  | nil => rfl
  | cons arg rest ih =>
    rw [List.foldl_cons, ih, List.map_cons, List.filter_cons]
    cases positional : isPositional arg.1 <;> simp [add, positional, foldl_addPositional_with]

theorem foldl_addPositional_of_full {i : Invocation} (named : i.command.isEmpty = false)
    (filed : i.descriptionFile.isNone = false) (args : List String) :
    args.foldl addPositional i = i := by
  induction args with
  | nil => rfl
  | cons arg rest ih => simpa [addPositional, named, filed] using ih

theorem foldl_addPositional {args : List String} (filled : ∀ arg ∈ args, arg ≠ "") :
    args.foldl addPositional {} =
      { command := args[0]?.getD "", descriptionFile := args[1]? } := by
  cases args with
  | nil => rfl
  | cons command rest =>
    cases rest with
    | nil => rfl
    | cons file more =>
      have named : command.isEmpty = false := by simpa using filled command List.mem_cons_self
      have two : addPositional (addPositional {} command) file =
          { command, descriptionFile := some file } := by
        simp [addPositional, named]
      rw [List.foldl_cons, List.foldl_cons, two]
      exact foldl_addPositional_of_full named rfl more

theorem positionals_eq (args : List String) :
    positionals args = ((standing args).map (·.1)).filter isPositional :=
  List.filter_congr fun arg _ => by simp [← isPositional_iff]

theorem ne_empty_of_mem_positionals {args : List String} {arg : String}
    (mem : arg ∈ positionals args) : arg ≠ "" := by
  rw [positionals_eq] at mem
  exact (isPositional_iff.mp (List.mem_filter.mp mem).2).1

theorem ofArgs_eq (args : List String) :
    ofArgs args =
      match request? args with
      | some command => { command }
      | none => ofParts args := by
  have options := Options.foldl_add {} (standing args)
  rw [ofArgs, addArgs_eq_foldl]
  cases request? args with
  | some command => rfl
  | none =>
    dsimp only
    rw [foldl_add, options, ← positionals_eq,
      foldl_addPositional fun arg mem => ne_empty_of_mem_positionals mem]
    simp [ofParts, isGiven, values]

theorem take_two_eq_iff {xs ys : List String} (filled : ∀ x ∈ xs, x ≠ "")
    (also : ∀ y ∈ ys, y ≠ "") :
    xs.take 2 = ys.take 2 ↔ xs[0]?.getD "" = ys[0]?.getD "" ∧ xs[1]? = ys[1]? := by
  obtain _ | ⟨x, _ | ⟨x', xs⟩⟩ := xs <;> obtain _ | ⟨y, _ | ⟨y', ys⟩⟩ := ys
  all_goals
    simp only [List.mem_cons, List.not_mem_nil] at filled also
    grind

/-- The first request among the arguments decides. Without one, an invocation has the first two
positional arguments, the flags that are given and the last value of each option, so that two lists
of arguments come to the same if and only if they agree in these. -/
theorem ofArgs_order_free (args : List String) :
    (ofArgs args =
      match request? args with
      | some command => { command }
      | none => ofParts args) ∧
    ∀ others, request? args = none → request? others = none →
      (ofArgs args = ofArgs others ↔
        (positionals args).take 2 = (positionals others).take 2 ∧
        (∀ flag ∈ [Flag.verbose, .quiet], isGiven flag args = isGiven flag others) ∧
        ∀ flag ∈ [Flag.out, .name],
          (values flag args).getLast? = (values flag others).getLast?) := by
  refine ⟨ofArgs_eq args, fun others silent also => ?_⟩
  have names : (positionals args).take 2 = (positionals others).take 2 ↔ _ :=
    take_two_eq_iff (fun _ mem => ne_empty_of_mem_positionals mem)
      fun _ mem => ne_empty_of_mem_positionals mem
  rw [ofArgs_eq, ofArgs_eq, silent, also, names]
  simp [ofParts, and_assoc]

/-- Values that look like options, a request among them, and a request that is one. -/
theorem ofArgs_order_free_disguised :
    let tidy := ["generate", "rock.yaml", "-V", "--name", "--help", "-o", ""]
    let messy := ["-o", "-n", "--verbose", "", "generate", "-n", "--help", "-x", "rock.yaml",
      "more", "--out"]
    ofArgs ["generate", "-o", "-n", "-h", "rock.yaml", "-v"] = { command := "help" } ∧
      request? tidy = none ∧ request? messy = none ∧ ofArgs tidy = ofArgs messy := by
  intro tidy messy
  have request : request? ["generate", "-o", "-n", "-h", "rock.yaml", "-v"] = some "help" := by
    decide
  have silent : request? tidy = none := by decide
  have also : request? messy = none := by decide
  have helped := (ofArgs_order_free ["generate", "-o", "-n", "-h", "rock.yaml", "-v"]).1
  rw [request] at helped
  exact ⟨helped, silent, also, ((ofArgs_order_free tidy).2 messy silent also).mpr (by decide)⟩

end Invocation

end CMakeScript
