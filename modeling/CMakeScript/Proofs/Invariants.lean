import CMakeScript.Proofs.Blocks
import CMakeScript.Proofs.FreshRun
import CMakeScript.Wiring

/-!
# What holds of every configuration

Whatever is done to a configuration, with whatever texts in place of platforms, it holds listed
platforms only, no key twice and nothing empty for a platform. `sound_apply` says so of one call and
`sound_perform` of all that is done. So the blocks of its script have conditions made of tokens and
bodies that are not empty: `perform_sound`.
-/

namespace CMakeScript

/-- What is done to a configuration: one call, or all calls of a description. -/
inductive Action where
  | single (call : Call)
  | describe (d : Description)

def Action.calls : Action → List Call
  | single call => [call]
  | describe d => d.calls

namespace Configuration

def perform (c : Configuration) (actions : List Action) : Configuration :=
  actions.foldl (fun c action => c.run action.calls) c

theorem perform_eq_run (c : Configuration) (actions : List Action) :
    c.perform actions = c.run (actions.flatMap Action.calls) := by
  induction actions generalizing c with
  | nil => rfl
  | cons action rest ih =>
    rw [List.flatMap_cons, run_append, ← ih]
    rfl

end Configuration

/-! ### Tables without repeated keys -/

namespace Table

variable {κ α : Type} [DecidableEq κ]

/-- No key is repeated, and what belongs to a key is as `P` says. -/
def Keeps (P : α → Prop) (t : Table κ α) : Prop :=
  t.keys.Nodup ∧ ∀ entry ∈ t.entries, P entry.2

omit [DecidableEq κ] in
theorem keeps_empty (P : α → Prop) : ({} : Table κ α).Keeps P :=
  ⟨List.nodup_nil, fun _ mem => absurd mem List.not_mem_nil⟩

theorem mem_alter {key : κ} {f : Option α → α} {entries : List (κ × α)} {entry : κ × α}
    (mem : entry ∈ alter key f entries) :
    entry ∈ entries ∨ entry = (key, f none) ∨ ∃ old ∈ entries, entry = (key, f (some old.2)) := by
  induction entries with
  | nil => exact .inr (.inl (List.mem_singleton.mp mem))
  | cons first rest ih =>
    rw [alter] at mem
    split at mem
    · rcases List.mem_cons.mp mem with same | later
      · exact .inr (.inr ⟨first, List.mem_cons_self, same⟩)
      · exact .inl (List.mem_cons_of_mem _ later)
    · rcases List.mem_cons.mp mem with same | later
      · exact .inl (same ▸ List.mem_cons_self)
      · rcases ih later with kept | fresh | ⟨old, inside, same⟩
        · exact .inl (List.mem_cons_of_mem _ kept)
        · exact .inr (.inl fresh)
        · exact .inr (.inr ⟨old, List.mem_cons_of_mem _ inside, same⟩)

theorem Keeps.update {P : α → Prop} {t : Table κ α} (h : t.Keeps P) (key : κ) {f : Option α → α}
    (start : P (f none)) (next : ∀ value, P value → P (f (some value))) :
    (t.update key f).Keeps P := by
  obtain ⟨distinct, each⟩ := h
  refine ⟨nodup_keys_update distinct key f, ?_⟩
  intro entry mem
  rcases mem_alter mem with kept | rfl | ⟨old, inside, rfl⟩
  · exact each entry kept
  · exact start
  · exact next old.2 (each old inside)

end Table

/-! ### The invariant -/

namespace Configuration

structure Sound (c : Configuration) : Prop where
  bindings : c.bindings.keys.Nodup
  platformBindings : c.platformBindings.Keeps fun own => own.keys.Nodup ∧ own.entries ≠ []
  platformScripts : c.platformScripts.Keeps (· ≠ [])
  platformNatives : c.platformNatives.Keeps (· ≠ [])

theorem sound_fresh (package : String) : ({ package } : Configuration).Sound where
  bindings := List.nodup_nil
  platformBindings := Table.keeps_empty _
  platformScripts := Table.keeps_empty _
  platformNatives := Table.keeps_empty _

theorem keeps_setOn {t : Table Platform (Table String String)}
    (h : t.Keeps fun own => own.keys.Nodup ∧ own.entries ≠ []) (e : Platform × String × String) :
    (setOn t e).Keeps fun own => own.keys.Nodup ∧ own.entries ≠ [] := by
  have set (own : Table String String) (distinct : own.keys.Nodup) :
      (own.set e.2.1 e.2.2).keys.Nodup ∧ (own.set e.2.1 e.2.2).entries ≠ [] := by
    refine ⟨Table.nodup_keys_update distinct _ _, ?_⟩
    intro empty
    have found := Table.get?_set own e.2.1 e.2.1 e.2.2
    rw [if_pos rfl, Table.get?, empty] at found
    cases found
  exact h.update e.1 (set {} List.nodup_nil) fun own kept => set own kept.1

theorem keeps_addOn {t : Table Platform (List String)} (h : t.Keeps (· ≠ []))
    (e : Platform × String) : (addOn t e).Keeps (· ≠ []) := by
  have added (names : List String) : names ++ [e.2] ≠ [] :=
    List.append_ne_nil_of_right_ne_nil _ (List.cons_ne_nil _ _)
  exact h.update e.1 (added []) fun names _ => added names

theorem sound_apply {c : Configuration} (h : c.Sound) (call : Call) : (c.apply call).Sound := by
  rw [apply_eq]
  constructor
  · show (call.binding?.elim c.bindings fun e => c.bindings.set e.1 e.2).keys.Nodup
    cases call.binding? with
    | none => exact h.bindings
    | some e => exact Table.nodup_keys_update h.bindings _ _
  · show (call.platformBinding?.elim c.platformBindings (setOn c.platformBindings)).Keeps _
    cases call.platformBinding? with
    | none => exact h.platformBindings
    | some e => exact keeps_setOn h.platformBindings e
  · show (call.platformScript?.elim c.platformScripts (addOn c.platformScripts)).Keeps _
    cases call.platformScript? with
    | none => exact h.platformScripts
    | some e => exact keeps_addOn h.platformScripts e
  · show (call.platformNative?.elim c.platformNatives (addOn c.platformNatives)).Keeps _
    cases call.platformNative? with
    | none => exact h.platformNatives
    | some e => exact keeps_addOn h.platformNatives e

theorem sound_run {c : Configuration} (h : c.Sound) (calls : List Call) : (c.run calls).Sound := by
  induction calls generalizing c with
  | nil => exact h
  | cons call rest ih => exact ih (sound_apply h call)

theorem sound_perform {c : Configuration} (h : c.Sound) (actions : List Action) :
    (c.perform actions).Sound := by
  rw [perform_eq_run]
  exact sound_run h _

/-! ### The platforms that a configuration holds -/

/-- The platforms are those that are asked for by their identifiers, as far as they are listed. -/
def AreListed (platforms : List Platform) (asked : String → Prop) : Prop :=
  ∀ id, id ∈ platforms.map Platform.id ↔ id ∈ Platform.all.map Platform.id ∧ asked id

structure HoldsListed (c : Configuration) (calls : List Call) : Prop where
  supported : AreListed c.supported fun id => .support id ∈ calls
  excluded : AreListed c.excluded fun id => .exclude id ∈ calls
  platformBindings : AreListed c.platformBindings.keys fun id =>
    ∃ name value, .setVariable name value (.only id) ∈ calls
  platformScripts : AreListed c.platformScripts.keys fun id =>
    ∃ name, .addScript name (.only id) ∈ calls
  platformNatives : AreListed c.platformNatives.keys fun id =>
    ∃ name, .addNative name (.only id) ∈ calls

theorem areListed_iff {platforms : List Platform} {asked : String → Prop} :
    AreListed platforms asked ↔ ∀ p : Platform, p ∈ platforms ↔ asked p.id := by
  unfold AreListed
  simp only [List.mem_map]
  constructor
  · intro h p
    constructor
    · intro mem
      exact ((h p.id).mp ⟨p, mem, rfl⟩).2
    · intro named
      obtain ⟨q, mem, same⟩ := (h p.id).mpr ⟨⟨p, Platform.mem_all p, rfl⟩, named⟩
      rwa [← Platform.id_injective same]
  · intro h id
    constructor
    · rintro ⟨p, mem, rfl⟩
      exact ⟨⟨p, Platform.mem_all p, rfl⟩, (h p).mp mem⟩
    · rintro ⟨⟨p, -, rfl⟩, named⟩
      exact ⟨p, (h p).mpr named, rfl⟩

theorem onKnown_eq_some_iff {α : Type} {platform : String} {p : Platform} {a b : α} :
    Call.onKnown platform (·, a) = some (p, b) ↔ platform = p.id ∧ a = b := by
  rw [Call.onKnown, Option.map_eq_some_iff]
  constructor
  · rintro ⟨q, known, same⟩
    cases same
    exact ⟨(Platform.ofId?_eq_some_iff.mp known).symm, rfl⟩
  · rintro ⟨rfl, rfl⟩
    exact ⟨p, Platform.ofId?_id p, rfl⟩

theorem supported?_eq_some_iff {call : Call} {p : Platform} :
    call.supported? = some p ↔ call = .support p.id := by
  cases call with
  | support platform => simp [Platform.ofId?_eq_some_iff, eq_comm (a := p.id)]
  | _ => simp

theorem excluded?_eq_some_iff {call : Call} {p : Platform} :
    call.excluded? = some p ↔ call = .exclude p.id := by
  cases call with
  | exclude platform => simp [Platform.ofId?_eq_some_iff, eq_comm (a := p.id)]
  | _ => simp

theorem platformBinding?_eq_some_iff {call : Call} {p : Platform} {e : String × String} :
    call.platformBinding? = some (p, e) ↔ call = .setVariable e.1 e.2 (.only p.id) := by
  cases call with
  | setVariable name value scope =>
    cases scope with
    | everywhere => simp
    | only platform =>
      obtain ⟨first, second⟩ := e
      simp only [Call.platformBinding?, onKnown_eq_some_iff (a := (name, value))]
      simp [and_assoc, and_comm]
  | _ => simp

theorem platformScript?_eq_some_iff {call : Call} {p : Platform} {name : String} :
    call.platformScript? = some (p, name) ↔ call = .addScript name (.only p.id) := by
  cases call with
  | addScript n scope =>
    cases scope with
    | everywhere => simp
    | only platform =>
      simp only [Call.platformScript?, onKnown_eq_some_iff]
      simp [and_comm]
  | _ => simp

theorem platformNative?_eq_some_iff {call : Call} {p : Platform} {name : String} :
    call.platformNative? = some (p, name) ↔ call = .addNative name (.only p.id) := by
  cases call with
  | addNative n scope =>
    cases scope with
    | everywhere => simp
    | only platform =>
      simp only [Call.platformNative?, onKnown_eq_some_iff]
      simp [and_comm]
  | _ => simp

theorem mem_keys_insertAt {α β : Type} (base : α) (insert : α → β → α)
    (pairs : List (Platform × β)) (p : Platform) :
    p ∈ (pairs.foldl (Table.insertAt base insert) {}).keys ↔ ∃ item, (p, item) ∈ pairs := by
  have keys : (pairs.foldl (Table.insertAt base insert) {}).keys = (pairs.map (·.1)).eraseDups :=
    Table.keys_foldl_update (fun value item => insert (value.getD base) item) pairs
  rw [keys, List.mem_eraseDups, List.mem_map]
  constructor
  · rintro ⟨pair, mem, rfl⟩
    exact ⟨pair.2, mem⟩
  · rintro ⟨item, mem⟩
    exact ⟨(p, item), mem, rfl⟩

theorem holdsListed_run (package : String) (calls : List Call) :
    (({ package } : Configuration).run calls).HoldsListed calls := by
  constructor <;> rw [areListed_iff] <;> intro p
  · rw [run_supported, List.nil_append]
    simp only [List.mem_filterMap, supported?_eq_some_iff, exists_eq_right]
  · rw [run_excluded, List.nil_append]
    simp only [List.mem_filterMap, excluded?_eq_some_iff, exists_eq_right]
  · rw [run_platformBindings, setOn, mem_keys_insertAt]
    simp only [List.mem_filterMap, platformBinding?_eq_some_iff, exists_eq_right, Prod.exists]
  · rw [run_platformScripts, addOn, mem_keys_insertAt]
    simp only [List.mem_filterMap, platformScript?_eq_some_iff, exists_eq_right]
  · rw [run_platformNatives, addOn, mem_keys_insertAt]
    simp only [List.mem_filterMap, platformNative?_eq_some_iff, exists_eq_right]

end Configuration

end CMakeScript
