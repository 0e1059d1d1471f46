import CMakeScript.Table

/-!
# Tables filled key by key

If all insertions for one key come before those for the next, a table of lists or tables has one
entry for each key that has an insertion at all: `foldl_insertAt_groups`.
-/

namespace CMakeScript

/-- Items that are added one after another make up their list. -/
theorem foldl_concat {α : Type} (items : List α) :
    items.foldl (fun l item => l ++ [item]) [] = items := by
  rw [List.foldl_append_eq_append, List.nil_append, ← List.flatMap_def, List.flatMap_singleton']

namespace Table

variable {κ α β : Type} [DecidableEq κ]

theorem alter_of_not_mem {key : κ} {entries : List (κ × α)} (f : Option α → α)
    (absent : key ∉ entries.map (·.1)) : alter key f entries = entries ++ [(key, f none)] := by
  induction entries with
  | nil => rfl
  | cons entry rest ih =>
    simp only [List.map_cons, List.mem_cons, not_or] at absent
    rw [alter, if_neg (Ne.symm absent.1), ih absent.2, List.cons_append]

theorem alter_last {key : κ} {entries : List (κ × α)} (f : Option α → α) (value : α)
    (absent : key ∉ entries.map (·.1)) :
    alter key f (entries ++ [(key, value)]) = entries ++ [(key, f (some value))] := by
  induction entries with
  | nil => simp [alter]
  | cons entry rest ih =>
    simp only [List.map_cons, List.mem_cons, not_or] at absent
    rw [List.cons_append, alter, if_neg (Ne.symm absent.1), ih absent.2, List.cons_append]

variable (base : α) (insert : α → β → α)

def insertAt (t : Table κ α) (e : κ × β) : Table κ α :=
  t.update e.1 fun value => insert (value.getD base) e.2

/-- The entry of a key with all its insertions; none if there are no insertions. -/
def group (key : κ) (items : List β) : List (κ × α) :=
  if items.isEmpty then [] else [(key, items.foldl insert base)]

omit [DecidableEq κ] in
theorem eq_of_mem_group {key other : κ} {items : List β}
    (mem : other ∈ (group base insert key items).map (·.1)) : other = key := by
  unfold group at mem
  split at mem
  · exact absurd mem List.not_mem_nil
  · exact List.mem_singleton.mp mem

theorem foldl_insertAt_last {key : κ} {entries : List (κ × α)} (value : α)
    (absent : key ∉ entries.map (·.1)) (items : List β) :
    (items.map (key, ·)).foldl (insertAt base insert) ⟨entries ++ [(key, value)]⟩ =
      ⟨entries ++ [(key, items.foldl insert value)]⟩ := by
  induction items generalizing value with
  | nil => rfl
  | cons item rest ih =>
    rw [List.map_cons, List.foldl_cons, List.foldl_cons, ← ih]
    rw [insertAt, update, alter_last _ _ absent]
    rfl

theorem foldl_insertAt_group {key : κ} {entries : List (κ × α)}
    (absent : key ∉ entries.map (·.1)) (items : List β) :
    (items.map (key, ·)).foldl (insertAt base insert) ⟨entries⟩ =
      ⟨entries ++ group base insert key items⟩ := by
  cases items with
  | nil => simp [group]
  | cons item rest =>
    have first : insertAt base insert ⟨entries⟩ (key, item) =
        ⟨entries ++ [(key, insert base item)]⟩ := by
      rw [insertAt, update, alter_of_not_mem _ absent]
      rfl
    rw [List.map_cons, List.foldl_cons, first, foldl_insertAt_last base insert _ absent]
    simp [group]

/-- Insertions key by key give the entries of the keys one after another. -/
theorem foldl_insertAt_groups {groups : List (κ × List β)} {entries : List (κ × α)}
    (distinct : (groups.map (·.1)).Nodup)
    (absent : ∀ g ∈ groups, g.1 ∉ entries.map (·.1)) :
    (groups.flatMap fun g => g.2.map (g.1, ·)).foldl (insertAt base insert) ⟨entries⟩ =
      ⟨entries ++ groups.flatMap fun g => group base insert g.1 g.2⟩ := by
  induction groups generalizing entries with
  | nil => simp
  | cons g rest ih =>
    -- The entry of the first key does not get in the way of later keys, which all differ from it.
    obtain ⟨fresh, others⟩ := List.nodup_cons.mp distinct
    have step := foldl_insertAt_group base insert (absent g List.mem_cons_self) g.2
    have later : ∀ h ∈ rest, h.1 ∉ (entries ++ group base insert g.1 g.2).map (·.1) := by
      intro h mem inside
      rw [List.map_append] at inside
      rcases List.mem_append.mp inside with old | new
      · exact absent h (List.mem_cons_of_mem _ mem) old
      · have key : h.1 ∈ rest.map (·.1) := List.mem_map_of_mem mem
        rw [eq_of_mem_group base insert new] at key
        exact fresh key
    rw [List.flatMap_cons, List.foldl_append, step, ih others later, List.flatMap_cons,
      List.append_assoc]

omit [DecidableEq κ] in
theorem flatMap_group {δ : Type} (key : δ → κ) (items : δ → List β) (sources : List δ) :
    (sources.flatMap fun source => group base insert (key source) (items source)) =
      (sources.filter fun source => !(items source).isEmpty).map fun source =>
        (key source, (items source).foldl insert base) := by
  induction sources with
  | nil => rfl
  | cons source rest ih =>
    rw [List.flatMap_cons, ih]
    cases h : items source <;> simp [group, h]

theorem alter_map {γ : Type} (f : α → γ) (key : κ) (value : α) (entries : List (κ × α)) :
    alter key (fun _ => f value) (entries.map fun e => (e.1, f e.2)) =
      (alter key (fun _ => value) entries).map fun e => (e.1, f e.2) := by
  induction entries with
  | nil => rfl
  | cons entry rest ih => by_cases h : entry.1 = key <;> simp [alter, h, ih]

/-- A table of changed values is the changed table of the values. -/
theorem entries_ofList_map {γ : Type} (f : α → γ) (pairs : List (κ × α)) :
    (ofList (pairs.map fun e => (e.1, f e.2))).entries =
      (ofList pairs).entries.map fun e => (e.1, f e.2) := by
  suffices ∀ t : Table κ α,
      ((pairs.map fun e => (e.1, f e.2)).foldl (fun t e => t.set e.1 e.2)
        ⟨t.entries.map fun e => (e.1, f e.2)⟩ : Table κ γ).entries =
      (pairs.foldl (fun t e => t.set e.1 e.2) t).entries.map fun e => (e.1, f e.2) from this {}
  induction pairs with
  | nil => exact fun t => rfl
  | cons pair rest ih =>
    intro t
    have next := ih (t.set pair.1 pair.2)
    rw [List.map_cons, List.foldl_cons, List.foldl_cons, ← next]
    congr 2
    exact congrArg Table.mk (alter_map f pair.1 pair.2 t.entries)

theorem mem_keys_ofList {pairs : List (κ × α)} {key : κ} (h : key ∈ (ofList pairs).keys) :
    key ∈ pairs.map (·.1) := by
  suffices ∀ t : Table κ α, key ∈ (pairs.foldl (fun t e => t.set e.1 e.2) t).keys →
      key ∈ t.keys ∨ key ∈ pairs.map (·.1) from (this {} h).resolve_left (by simp [keys])
  clear h
  induction pairs with
  | nil => exact fun t h => .inl h
  | cons pair rest ih =>
    intro t h
    rcases ih (t.set pair.1 pair.2) h with before | later
    · rw [keys_set] at before
      split at before
      · exact .inl before
      · rcases List.mem_append.mp before with old | new
        · exact .inl old
        · rw [List.mem_singleton] at new
          exact .inr (by simp [new])
    · exact .inr (List.mem_cons_of_mem _ later)

end Table

end CMakeScript
