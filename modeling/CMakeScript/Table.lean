/-!
# Tables in order of insertion

A table holds one value for each key. A key keeps the place of its first insertion and takes the
value of its last one. `keys_set` and `get?_set` say so for a single insertion.
-/

namespace CMakeScript

/-- Keys with values, in the order in which the keys were first inserted. -/
structure Table (κ α : Type) where
  entries : List (κ × α) := []
  deriving DecidableEq, Repr

namespace Table

variable {κ α : Type}

def keys (t : Table κ α) : List κ :=
  t.entries.map (·.1)

section Lookup

variable [DecidableEq κ]

/-- The value of the first entry for `key`. -/
def lookup (key : κ) : List (κ × α) → Option α
  | [] => none
  | entry :: rest => if entry.1 = key then some entry.2 else lookup key rest

/-- The entries after `key` has been given the value that `f` makes of its present one. -/
def alter (key : κ) (f : Option α → α) : List (κ × α) → List (κ × α)
  | [] => [(key, f none)]
  | entry :: rest =>
    if entry.1 = key then (key, f (some entry.2)) :: rest else entry :: alter key f rest

def get? (t : Table κ α) (key : κ) : Option α :=
  lookup key t.entries

def update (t : Table κ α) (key : κ) (f : Option α → α) : Table κ α :=
  ⟨alter key f t.entries⟩

def set (t : Table κ α) (key : κ) (value : α) : Table κ α :=
  t.update key fun _ => value

/-- The table that arises by inserting the pairs one after another. -/
def ofList (pairs : List (κ × α)) : Table κ α :=
  pairs.foldl (fun t pair => t.set pair.1 pair.2) {}

theorem lookup_alter_self (key : κ) (f : Option α → α) (entries : List (κ × α)) :
    lookup key (alter key f entries) = some (f (lookup key entries)) := by
  induction entries with
  | nil => simp [alter, lookup]
  | cons entry rest ih => by_cases h : entry.1 = key <;> simp [alter, lookup, h, ih]

theorem lookup_alter_of_ne {key other : κ} (ne : other ≠ key) (f : Option α → α)
    (entries : List (κ × α)) : lookup other (alter key f entries) = lookup other entries := by
  induction entries with
  | nil => simp [alter, lookup, Ne.symm ne]
  | cons entry rest ih =>
    by_cases h : entry.1 = key
    · simp [alter, lookup, h, Ne.symm ne]
    · rw [alter, if_neg h, lookup, lookup, ih]

theorem keys_alter (key : κ) (f : Option α → α) (entries : List (κ × α)) :
    (alter key f entries).map (·.1) =
      if key ∈ entries.map (·.1) then entries.map (·.1) else entries.map (·.1) ++ [key] := by
  induction entries with
  | nil => simp [alter]
  | cons entry rest ih =>
    by_cases h : entry.1 = key
    · simp [alter, h]
    · have mem : (key ∈ (entry :: rest).map (·.1)) ↔ key ∈ rest.map (·.1) := by
        simp [Ne.symm h]
      rw [alter, if_neg h, List.map_cons, ih]
      simp only [mem]
      split <;> rfl

theorem get?_set (t : Table κ α) (key other : κ) (value : α) :
    (t.set key value).get? other = if other = key then some value else t.get? other := by
  by_cases h : other = key
  · subst h
    simp [set, update, get?, lookup_alter_self]
  · simp [set, update, get?, lookup_alter_of_ne h, h]

theorem keys_set (t : Table κ α) (key : κ) (value : α) :
    (t.set key value).keys = if key ∈ t.keys then t.keys else t.keys ++ [key] :=
  keys_alter key _ t.entries

end Lookup

end Table

end CMakeScript
