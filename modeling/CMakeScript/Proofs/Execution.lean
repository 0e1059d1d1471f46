import CMakeScript.Proofs.Program

/-!
# Runs of a script

A run goes through statements in order, into a block if its condition holds, and stops at the first
message that is a fatal error. `executeAll_append` says how runs are put together, and
`isExact_executeAll` that a run is stopped exactly if it comes to such a message.
-/

namespace CMakeScript

/-- What a run finds: the variables that are true, and how often it goes through a loop. -/
structure World where
  isTrue : String → Bool
  rounds : List String → Nat

/-- How far a run gets: the directives it comes to, and whether one of them stops it. -/
structure Execution where
  reached : List Directive := []
  stopped : Bool := false

def Directive.isFatal (d : Directive) : Bool :=
  d.name == "message" && d.arguments.head? == some "FATAL_ERROR"

namespace Execution

def andThen (first second : Execution) : Execution :=
  if first.stopped then first else ⟨first.reached ++ second.reached, second.stopped⟩

def times (e : Execution) : Nat → Execution
  | 0 => {}
  | n + 1 => e.andThen (e.times n)

theorem stopped_andThen (first second : Execution) :
    (first.andThen second).stopped = (first.stopped || second.stopped) := by
  unfold andThen
  cases h : first.stopped <;> simp [h]

theorem andThen_assoc (a b c : Execution) : (a.andThen b).andThen c = a.andThen (b.andThen c) := by
  unfold andThen
  cases ha : a.stopped <;> cases hb : b.stopped <;> simp [ha, hb]

theorem andThen_of_stopped {first : Execution} (h : first.stopped = true) (second : Execution) :
    first.andThen second = first := if_pos h

/-- The run is stopped exactly if it comes to a directive that stops it. -/
def IsExact (e : Execution) : Prop :=
  e.stopped = true ↔ ∃ d ∈ e.reached, d.isFatal = true

theorem isExact_empty : IsExact {} :=
  ⟨fun h => Bool.noConfusion h, fun ⟨_, mem, _⟩ => absurd mem List.not_mem_nil⟩

theorem IsExact.andThen {first second : Execution} (hf : first.IsExact) (hs : second.IsExact) :
    (first.andThen second).IsExact := by
  unfold IsExact at hf hs ⊢
  by_cases h : first.stopped = true
  · rw [andThen_of_stopped h]
    exact hf
  · have none : ¬ ∃ d ∈ first.reached, d.isFatal = true := fun fatal => h (hf.mpr fatal)
    rw [Execution.andThen, if_neg h, hs]
    constructor
    · rintro ⟨d, mem, fatal⟩
      exact ⟨d, List.mem_append_right _ mem, fatal⟩
    · rintro ⟨d, mem, fatal⟩
      rcases List.mem_append.mp mem with before | later
      · exact absurd ⟨d, before, fatal⟩ none
      · exact ⟨d, later, fatal⟩

theorem IsExact.times {e : Execution} (h : e.IsExact) (n : Nat) : (e.times n).IsExact := by
  induction n with
  | zero => exact isExact_empty
  | succ n ih => exact h.andThen ih

end Execution

namespace Statement

/-- The condition of a block: variables, negated or not, that are joined by `AND`. Any other
condition does not hold. -/
def holds (w : World) : List String → Bool
  | [word] => w.isTrue word
  | ["NOT", word] => !w.isTrue word
  | "NOT" :: word :: "AND" :: rest => !w.isTrue word && holds w rest
  | word :: "AND" :: rest => w.isTrue word && holds w rest
  | _ => false

mutual

def execute (w : World) : Statement → Execution
  | directive d => ⟨[d], d.isFatal⟩
  | conditional condition body => if holds w condition then executeAll w body else {}
  | loop header body _ => (executeAll w body).times (w.rounds header)

def executeAll (w : World) : List Statement → Execution
  | [] => {}
  | s :: rest => (execute w s).andThen (executeAll w rest)

end

variable (w : World)

theorem executeAll_append (first second : List Statement) :
    executeAll w (first ++ second) = (executeAll w first).andThen (executeAll w second) := by
  induction first with
  | nil => rfl
  | cons s rest ih => rw [List.cons_append, executeAll, executeAll, ih, Execution.andThen_assoc]

theorem executeAll_singleton (s : Statement) : executeAll w [s] = execute w s := by
  show (execute w s).andThen {} = execute w s
  unfold Execution.andThen
  split
  · rfl
  next goesOn =>
    rw [Bool.not_eq_true] at goesOn
    rw [List.append_nil, ← goesOn]

theorem stopped_executeAll (statements : List Statement) :
    (executeAll w statements).stopped = statements.any fun s => (execute w s).stopped := by
  induction statements with
  | nil => rfl
  | cons s rest ih => rw [executeAll, Execution.stopped_andThen, ih, List.any_cons]

mutual

theorem isExact_execute (s : Statement) : (execute w s).IsExact := by
  match s with
  | directive d =>
    unfold Execution.IsExact
    simp [execute]
  | conditional condition body =>
    rw [execute]
    split
    · exact isExact_executeAll body
    · exact Execution.isExact_empty
  | loop header body footer =>
    rw [execute]
    exact (isExact_executeAll body).times _

theorem isExact_executeAll (statements : List Statement) :
    (executeAll w statements).IsExact := by
  match statements with
  | [] => exact Execution.isExact_empty
  | s :: rest =>
    rw [executeAll]
    exact (isExact_execute s).andThen (isExact_executeAll rest)

end

theorem holds_token (p : Platform) : holds w [p.token] = w.isTrue p.token := rfl

theorem holds_noneOf {platforms : List Platform} (ne : platforms ≠ []) :
    holds w (Program.noneOf platforms) = platforms.all fun p => !w.isTrue p.token := by
  induction platforms with
  | nil => exact absurd rfl ne
  | cons p rest ih =>
    cases rest with
    | nil =>
      rw [Program.noneOf]
      simp [holds]
    | cons q more =>
      have later := ih (List.cons_ne_nil q more)
      rw [Program.noneOf, holds, later]
      · rfl
      · exact List.cons_ne_nil q more

end Statement

end CMakeScript
