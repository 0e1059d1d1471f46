import CMakeScript.Proofs.Grouping

/-!
# The last value of a key

A table that is filled by insertions holds for each key the value of the last of them:
`get?_ofList_append` says so for two rows of insertions, `get?_ofList_flatMap` for any number.
-/

namespace CMakeScript.Table

variable {κ α : Type} [DecidableEq κ]

theorem get?_foldl_set (t : Table κ α) (pairs : List (κ × α)) (key : κ) :
    (pairs.foldl (fun t pair => t.set pair.1 pair.2) t).get? key =
      ((ofList pairs).get? key).or (t.get? key) := by
  induction pairs generalizing t with
  | nil => rfl
  | cons pair rest ih =>
    have first := ih (({} : Table κ α).set pair.1 pair.2)
    rw [ofList, List.foldl_cons, List.foldl_cons, ih, first, get?_set, get?_set]
    by_cases same : key = pair.1
    · simp [same]
    · rw [if_neg same, if_neg same, Option.or_assoc]
      rfl

theorem get?_ofList_append (first second : List (κ × α)) (key : κ) :
    (ofList (first ++ second)).get? key =
      ((ofList second).get? key).or ((ofList first).get? key) := by
  rw [ofList, List.foldl_append, get?_foldl_set]
  rfl

theorem get?_ofList_singleton (key other : κ) (value : α) :
    (ofList [(key, value)]).get? other = if other = key then some value else none := by
  rw [ofList, List.foldl_cons, List.foldl_nil, get?_set]
  rfl

theorem get?_ofList_of_not_mem {pairs : List (κ × α)} {key : κ}
    (absent : key ∉ pairs.map (·.1)) : (ofList pairs).get? key = none := by
  induction pairs with
  | nil => rfl
  | cons pair rest ih =>
    rw [List.map_cons, List.mem_cons, not_or] at absent
    have first := get?_ofList_append [pair] rest key
    rw [ih absent.2, get?_ofList_singleton, if_neg absent.1] at first
    exact first

/-- Of several rows of insertions, the last one that has the key decides. -/
theorem get?_ofList_flatMap {δ : Type} (items : List δ) (pairs : δ → List (κ × α)) (key : κ) :
    (ofList (items.flatMap pairs)).get? key =
      (items.filterMap fun item => (ofList (pairs item)).get? key).getLast? := by
  induction items with
  | nil => rfl
  | cons item rest ih =>
    rw [List.flatMap_cons, get?_ofList_append, ih, List.filterMap_cons]
    cases (ofList (pairs item)).get? key with
    | none => rw [Option.or_none]
    | some value => rw [List.getLast?_cons, Option.or_some]

theorem keys_update (t : Table κ α) (key : κ) (f : Option α → α) :
    (t.update key f).keys = if key ∈ t.keys then t.keys else t.keys ++ [key] :=
  keys_alter key f t.entries

theorem nodup_keys_update {t : Table κ α} (h : t.keys.Nodup) (key : κ) (f : Option α → α) :
    (t.update key f).keys.Nodup := by
  rw [keys_update]
  split
  next => exact h
  next absent =>
    refine List.nodup_append.mpr ⟨h, List.pairwise_singleton _ key, ?_⟩
    intro a old b new same
    rw [List.mem_singleton.mp new] at same
    exact absent (same ▸ old)

theorem nodup_keys_ofList (pairs : List (κ × α)) : (ofList pairs).keys.Nodup := by
  have folded : ∀ t : Table κ α, t.keys.Nodup →
      (pairs.foldl (fun t pair => t.set pair.1 pair.2) t).keys.Nodup := by
    induction pairs with
    | nil => exact fun t h => h
    | cons pair rest ih => exact fun t h => ih _ (nodup_keys_update h pair.1 _)
  exact folded {} List.nodup_nil

theorem get?_ofList_entries {t : Table κ α} (distinct : t.keys.Nodup) (key : κ) :
    (ofList t.entries).get? key = t.get? key := by
  obtain ⟨entries⟩ := t
  induction entries with
  | nil => rfl
  | cons entry rest ih =>
    obtain ⟨fresh, others⟩ := List.nodup_cons.mp distinct
    have first := get?_ofList_append [entry] rest key
    rw [get?_ofList_singleton] at first
    rw [show (ofList (entry :: rest)).get? key = _ from first]
    by_cases same : key = entry.1
    · rw [same, get?_ofList_of_not_mem fresh]
      simp [get?, lookup]
    · rw [show (ofList rest).get? key = _ from ih others, if_neg same]
      simp [get?, lookup, Ne.symm same]

theorem lookup_eq_some_iff {entries : List (κ × α)} (distinct : (entries.map (·.1)).Nodup) {key : κ}
    {value : α} : lookup key entries = some value ↔ (key, value) ∈ entries := by
  induction entries with
  | nil => simp [lookup]
  | cons entry rest ih =>
    obtain ⟨fresh, others⟩ := List.nodup_cons.mp distinct
    rw [lookup, List.mem_cons]
    by_cases same : entry.1 = key
    · subst same
      have later : (entry.1, value) ∉ rest :=
        fun mem => fresh (List.mem_map.mpr ⟨(entry.1, value), mem, rfl⟩)
      simp [later, Prod.ext_iff, eq_comm]
    · rw [if_neg same, ih others]
      have first : (key, value) ≠ entry := fun eq => same (congrArg Prod.fst eq).symm
      simp [first]

/-- Where no key is repeated, the first value is the last one. -/
theorem get?_ofList_of_mem {pairs : List (κ × α)} (distinct : (pairs.map (·.1)).Nodup) {key : κ}
    {value : α} (mem : (key, value) ∈ pairs) : (ofList pairs).get? key = some value := by
  have same : (ofList pairs).get? key = lookup key pairs :=
    get?_ofList_entries (t := ⟨pairs⟩) distinct key
  rw [same, lookup_eq_some_iff distinct]
  exact mem

theorem lookup_map {γ : Type} (f : α → γ) (key : κ) (entries : List (κ × α)) :
    lookup key (entries.map fun entry => (entry.1, f entry.2)) =
      (lookup key entries).map f := by
  induction entries with
  | nil => rfl
  | cons entry rest ih => by_cases same : entry.1 = key <;> simp [lookup, same, ih]

end CMakeScript.Table
