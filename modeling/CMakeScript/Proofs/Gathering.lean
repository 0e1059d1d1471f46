import CMakeScript.Proofs.LastValue
import Mathlib.Data.List.Induction
import Mathlib.Data.List.Nodup

/-!
# What insertions come to

A table that is filled by insertions has the keys in the order in which they first occur, each with
what its values come to one after another: `foldl_update_eq_gather`. The order in which values for
different keys follow each other does not matter otherwise.
-/

namespace CMakeScript.Table

variable {κ α β : Type} [DecidableEq κ]

/-- The values that a key is given, in order. -/
def valuesOf (key : κ) (pairs : List (κ × β)) : List β :=
  pairs.filterMap fun pair => if pair.1 = key then some pair.2 else none

/-- The keys in the order in which they first occur, each with what its values come to. -/
def gather (f : List β → Option α) (pairs : List (κ × β)) : Table κ α :=
  ⟨(pairs.map (·.1)).eraseDups.filterMap fun key => (f (valuesOf key pairs)).map (key, ·)⟩

theorem valuesOf_ne_nil {key : κ} {pairs : List (κ × β)} (mem : key ∈ pairs.map (·.1)) :
    valuesOf key pairs ≠ [] := by
  obtain ⟨pair, inside, rfl⟩ := List.mem_map.mp mem
  exact List.ne_nil_of_mem (List.mem_filterMap.mpr ⟨pair, inside, if_pos rfl⟩)

/-! ### Keys and values of a table -/

theorem get?_update (t : Table κ α) (key other : κ) (f : Option α → α) :
    (t.update key f).get? other = if other = key then some (f (t.get? key)) else t.get? other := by
  by_cases same : other = key
  · rw [if_pos same, same]
    exact lookup_alter_self key f t.entries
  · rw [if_neg same]
    exact lookup_alter_of_ne same f t.entries

/-- Without repeated keys, the keys and the values that belong to them are all there is. -/
theorem entries_eq {t : Table κ α} (distinct : t.keys.Nodup) :
    t.entries = t.keys.filterMap fun key => (t.get? key).map (key, ·) := by
  obtain ⟨entries⟩ := t
  unfold keys get? at *
  induction entries with
  | nil => rfl
  | cons entry rest ih =>
    obtain ⟨fresh, others⟩ := List.nodup_cons.mp distinct
    have later : (rest.map (·.1)).filterMap (fun key => (lookup key (entry :: rest)).map (key, ·)) =
        (rest.map (·.1)).filterMap fun key => (lookup key rest).map (key, ·) := by
      apply List.filterMap_congr
      intro key mem
      have ne : entry.1 ≠ key := by
        rintro rfl
        exact fresh mem
      rw [lookup, if_neg ne]
    rw [List.map_cons, List.filterMap_cons, later, ← ih others]
    simp [lookup]

/-! ### Insertions -/

section Insertions

variable (insert : Option α → β → α)

theorem keys_foldl_update (pairs : List (κ × β)) :
    (pairs.foldl (fun t pair => t.update pair.1 (insert · pair.2)) ({} : Table κ α)).keys =
      (pairs.map (·.1)).eraseDups := by
  induction pairs using List.reverseRecOn with
  | nil => rfl
  | append_singleton front pair ih =>
    rw [List.foldl_append, List.foldl_cons, List.foldl_nil, keys_update, ih, List.map_append,
      List.eraseDups_append]
    simp only [List.mem_eraseDups]
    split
    next known => simp [known, List.removeAll]
    next new => simp [new, List.removeAll, List.eraseDups_cons]

theorem nodup_keys_foldl_update (pairs : List (κ × β)) :
    (pairs.foldl (fun t pair => t.update pair.1 (insert · pair.2))
      ({} : Table κ α)).keys.Nodup := by
  induction pairs using List.reverseRecOn with
  | nil => exact List.nodup_nil
  | append_singleton front pair ih =>
    rw [List.foldl_append]
    exact nodup_keys_update ih pair.1 _

theorem get?_foldl_update (pairs : List (κ × β)) (key : κ) :
    (pairs.foldl (fun t pair => t.update pair.1 (insert · pair.2)) ({} : Table κ α)).get? key =
      (valuesOf key pairs).foldl (fun value item => some (insert value item)) none := by
  induction pairs using List.reverseRecOn with
  | nil => rfl
  | append_singleton front pair ih =>
    rw [List.foldl_append, List.foldl_cons, List.foldl_nil, get?_update, valuesOf,
      List.filterMap_append]
    by_cases same : pair.1 = key
    · subst same
      rw [if_pos rfl, ih]
      simp [valuesOf]
    · rw [if_neg (Ne.symm same), ih]
      simp [valuesOf, same]

/-- Insertions leave the gathered table, whichever way `f` says what the values come to. -/
theorem foldl_update_eq_gather {f : List β → Option α}
    (comes : ∀ items ≠ [], items.foldl (fun value item => some (insert value item)) none = f items)
    (pairs : List (κ × β)) :
    pairs.foldl (fun t pair => t.update pair.1 (insert · pair.2)) ({} : Table κ α) =
      gather f pairs := by
  have entries := entries_eq (nodup_keys_foldl_update insert pairs)
  rw [keys_foldl_update] at entries
  refine congrArg Table.mk (entries.trans (List.filterMap_congr fun key mem => ?_))
  rw [get?_foldl_update, comes _ (valuesOf_ne_nil (List.mem_eraseDups.mp mem))]

end Insertions

theorem ofList_eq_gather (pairs : List (κ × α)) : ofList pairs = gather List.getLast? pairs := by
  refine foldl_update_eq_gather (fun _ item => item) (fun items _ => ?_) pairs
  induction items using List.reverseRecOn with
  | nil => rfl
  | append_singleton front item ih => rw [List.foldl_append, List.getLast?_concat]; rfl

theorem foldl_insertAt_eq_gather (base : α) (insert : α → β → α) (pairs : List (κ × β)) :
    pairs.foldl (insertAt base insert) {} =
      gather (fun items => some (items.foldl insert base)) pairs := by
  refine foldl_update_eq_gather (fun value item => insert (value.getD base) item)
    (fun items ne => ?_) pairs
  have rest (value : α) (items : List β) :
      items.foldl (fun value item => some (insert (value.getD base) item)) (some value) =
        some (items.foldl insert value) := by
    induction items generalizing value with
    | nil => rfl
    | cons item rest ih => exact ih (insert value item)
  obtain ⟨item, later, rfl⟩ := List.exists_cons_of_ne_nil ne
  exact rest (insert base item) later

end CMakeScript.Table
