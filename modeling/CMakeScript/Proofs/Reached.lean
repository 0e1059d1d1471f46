import CMakeScript.Proofs.Execution

/-!
# How often a run comes to a directive

`hits` counts the directives of a kind that a run comes to. Statements that never stop a run are
counted part by part, and a block counts where its condition holds: `hits_append`,
`hits_conditional`.
-/

namespace CMakeScript

namespace Statement

/-- No directive of the statements is of the kind. -/
def Avoids (kind : Directive → Bool) (statements : List Statement) : Prop :=
  ∀ c ∈ directivesOf statements, kind c = false

section Avoids

variable {kind : Directive → Bool}

theorem avoids_append {first second : List Statement} :
    Avoids kind (first ++ second) ↔ Avoids kind first ∧ Avoids kind second := by
  unfold Avoids
  rw [directivesOf_append, List.forall_mem_append]

theorem avoids_flatMap {α : Type} {body : α → List Statement} {items : List α} :
    Avoids kind (items.flatMap body) ↔ ∀ item ∈ items, Avoids kind (body item) := by
  unfold Avoids
  rw [directivesOf_flatMap, List.forall_mem_flatMap]

theorem avoids_conditional {condition : List String} {body : List Statement} :
    Avoids kind [.conditional condition body] ↔
      kind ⟨"if", condition⟩ = false ∧ Avoids kind body ∧ kind ⟨"endif", []⟩ = false := by
  unfold Avoids
  rw [directivesOf, directivesOf, List.append_nil, directives, List.forall_mem_cons,
    List.forall_mem_append, List.forall_mem_singleton]

theorem avoids_platformBlocks {α β : Type} {parts : α → List β} {body : β → List Statement}
    (each : ∀ part, Avoids kind (body part)) (opening : ∀ words, kind ⟨"if", words⟩ = false)
    (closing : kind ⟨"endif", []⟩ = false) (entries : List (Platform × α)) :
    Avoids kind (Program.platformBlocks parts body entries) := by
  apply avoids_flatMap.mpr
  intro entry _
  split
  · exact fun c mem => absurd mem List.not_mem_nil
  · exact avoids_conditional.mpr ⟨opening _, avoids_flatMap.mpr fun part _ => each part, closing⟩

end Avoids

/-- None of the statements stops a run. -/
abbrev Harmless (statements : List Statement) : Prop := Avoids Directive.isFatal statements

variable (w : World)

mutual

theorem mem_directives_of_reached (s : Statement) :
    ∀ c ∈ (execute w s).reached, c ∈ directives s := by
  match s with
  | directive d =>
    intro c mem
    rwa [execute] at mem
  | conditional condition body =>
    intro c mem
    rw [execute] at mem
    split at mem
    · have inside := mem_directivesOf_of_reached body c mem
      exact List.mem_cons_of_mem _ (List.mem_append_left _ inside)
    · exact absurd mem List.not_mem_nil
  | loop header body footer =>
    have rounds : ∀ n, ∀ c ∈ ((executeAll w body).times n).reached, c ∈ directivesOf body := by
      intro n
      induction n with
      | zero => exact fun c mem => absurd mem List.not_mem_nil
      | succ n ih =>
        intro c mem
        rw [Execution.times, Execution.andThen] at mem
        split at mem
        · exact mem_directivesOf_of_reached body c mem
        · rcases List.mem_append.mp mem with first | later
          · exact mem_directivesOf_of_reached body c first
          · exact ih c later
    intro c mem
    rw [execute] at mem
    exact List.mem_cons_of_mem _ (List.mem_append_left _ (rounds _ c mem))

/-- A run comes to nothing but the directives of the statements. -/
theorem mem_directivesOf_of_reached (statements : List Statement) :
    ∀ c ∈ (executeAll w statements).reached, c ∈ directivesOf statements := by
  match statements with
  | [] => exact fun c mem => absurd mem List.not_mem_nil
  | s :: rest =>
    intro c mem
    rw [executeAll, Execution.andThen] at mem
    split at mem
    · exact List.mem_append_left _ (mem_directives_of_reached s c mem)
    · rcases List.mem_append.mp mem with first | later
      · exact List.mem_append_left _ (mem_directives_of_reached s c first)
      · exact List.mem_append_right _ (mem_directivesOf_of_reached rest c later)

end

theorem Harmless.not_stopped {statements : List Statement} (h : Harmless statements) :
    (executeAll w statements).stopped = false := by
  cases stopped : (executeAll w statements).stopped with
  | false => rfl
  | true =>
    obtain ⟨c, mem, fatal⟩ := (isExact_executeAll w statements).mp stopped
    rw [h c (mem_directivesOf_of_reached w statements c mem)] at fatal
    cases fatal

/-- How often a run comes to a directive of the kind. -/
def hits (kind : Directive → Bool) (statements : List Statement) : Nat :=
  (executeAll w statements).reached.countP kind

variable {w} {kind : Directive → Bool}

theorem hits_eq_zero {statements : List Statement} (h : Avoids kind statements) :
    hits w kind statements = 0 := by
  apply List.countP_eq_zero.mpr
  intro c mem
  rw [h c (mem_directivesOf_of_reached w statements c mem)]
  exact Bool.false_ne_true

theorem hits_append {first second : List Statement} (h : Harmless first) :
    hits w kind (first ++ second) = hits w kind first + hits w kind second := by
  unfold hits
  rw [executeAll_append, Execution.andThen, if_neg (by rw [h.not_stopped]; decide),
    List.countP_append]

theorem hits_directive (c : Directive) :
    hits w kind [.directive c] = if kind c = true then 1 else 0 := by
  rw [hits, executeAll_singleton, execute, List.countP_singleton]

theorem hits_conditional (condition : List String) (body : List Statement) :
    hits w kind [.conditional condition body] =
      if holds w condition then hits w kind body else 0 := by
  rw [hits, executeAll_singleton, execute]
  split <;> rfl

/-- If the directives for a name hit once and those for others do not, the names are counted. -/
theorem hits_flatMap_names {name : String} {body : String → List Statement}
    (each : ∀ n, hits w kind (body n) = if n = name then 1 else 0) {names : List String}
    (h : Harmless (names.flatMap body)) :
    hits w kind (names.flatMap body) = names.count name := by
  induction names with
  | nil => rfl
  | cons n rest ih =>
    rw [List.flatMap_cons] at h ⊢
    obtain ⟨first, later⟩ := avoids_append.mp h
    rw [hits_append first, each, ih later, List.count_cons, Nat.add_comm]
    simp only [beq_iff_eq]

theorem hits_platformBlocks {name : String} {body : String → List Statement}
    (each : ∀ n, hits w kind (body n) = if n = name then 1 else 0)
    {parts : List String → List String} {entries : List (Platform × List String)}
    (distinct : ∀ entry ∈ entries, (parts entry.2).Nodup)
    (h : Harmless (Program.platformBlocks parts body entries)) :
    hits w kind (Program.platformBlocks parts body entries) =
      entries.countP fun entry => w.isTrue entry.1.token && (parts entry.2).contains name := by
  induction entries with
  | nil => rfl
  | cons entry rest ih =>
    have later := ih fun other mem => distinct other (List.mem_cons_of_mem _ mem)
    unfold Program.platformBlocks at h later ⊢
    rw [List.flatMap_cons] at h ⊢
    obtain ⟨block, blocks⟩ := avoids_append.mp h
    rw [hits_append block, later blocks, List.countP_cons, Nat.add_comm]
    congr 1
    by_cases empty : parts entry.2 = []
    · have nothing : hits w kind [] = 0 := rfl
      simp [empty, nothing]
    · have filled : ((parts entry.2).isEmpty = true) = False := by simp [empty]
      simp only [filled, if_false] at block ⊢
      rw [hits_conditional, holds_token, hits_flatMap_names each (avoids_conditional.mp block).2.1,
        (distinct entry List.mem_cons_self).count]
      cases w.isTrue entry.1.token <;> simp

end Statement

end CMakeScript
