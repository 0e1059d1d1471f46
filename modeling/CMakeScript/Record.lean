/-!
# Records with index keys first

A record is a mapping from texts to values with a fixed order of its keys: the index keys, which
are the decimal numbers below 4294967295 in their shortest form, ascending; then the other keys as
they were first inserted. A key that is inserted again keeps its place and takes the new value.
`ordered_arrange` says that every list of pairs is brought into this order, `arrange_of_ordered`
that a list in this order stays as it is.
-/

namespace CMakeScript

namespace Record

/-- The number that decimal digits stand for. -/
def decimal? (digits : List Char) : Option Nat :=
  if !digits.isEmpty && digits.all Char.isDigit then
    some (digits.foldl (fun n c => 10 * n + (c.toNat - '0'.toNat)) 0)
  else none

/-- The number below 4294967295 whose decimal text the key is. -/
def index? (key : String) : Option Nat :=
  match decimal? key.toList with
  | some n => if n < 4294967295 ∧ n.repr = key then some n else none
  | none => none

/-- The first key may stand somewhere before the second in a record. -/
def Precedes (first second : String) : Prop :=
  match index? first, index? second with
  | some m, some n => m < n
  | some _, none => True
  | none, some _ => False
  | none, none => first ≠ second

variable {α : Type}

/-- Entries in the order of a record. -/
def Ordered (entries : List (String × α)) : Prop :=
  (entries.map (·.1)).Pairwise Precedes

/-- Puts an index key in front of the first key that is not a smaller index key. -/
def insertIndex (key : String) (n : Nat) (value : α) : List (String × α) → List (String × α)
  | [] => [(key, value)]
  | entry :: rest =>
    match index? entry.1 with
    | some m =>
      if m < n then entry :: insertIndex key n value rest else (key, value) :: entry :: rest
    | none => (key, value) :: entry :: rest

def replace (key : String) (value : α) (entries : List (String × α)) : List (String × α) :=
  entries.map fun entry => if entry.1 = key then (key, value) else entry

def insert (entries : List (String × α)) (key : String) (value : α) : List (String × α) :=
  if key ∈ entries.map (·.1) then replace key value entries
  else
    match index? key with
    | some n => insertIndex key n value entries
    | none => entries ++ [(key, value)]

/-- The entries that arise by inserting the pairs one after another. -/
def arrange (pairs : List (String × α)) : List (String × α) :=
  pairs.foldl (fun entries pair => insert entries pair.1 pair.2) []

/-! ### The order is kept -/

theorem repr_of_index? {key : String} {n : Nat} (h : index? key = some n) : n.repr = key := by
  unfold index? at h
  split at h
  next m _ =>
    split at h
    next c => cases h; exact c.2
    next => cases h
  next => cases h

theorem index?_injective {a b : String} {n : Nat} (ha : index? a = some n)
    (hb : index? b = some n) : a = b := by
  rw [← repr_of_index? ha, ← repr_of_index? hb]

theorem Precedes.ne {a b : String} (h : Precedes a b) : a ≠ b := by
  rintro rfl
  unfold Precedes at h
  cases hi : index? a <;> simp [hi] at h

theorem keys_replace (key : String) (value : α) (entries : List (String × α)) :
    (replace key value entries).map (·.1) = entries.map (·.1) := by
  simp only [replace, List.map_map]
  apply List.map_congr_left
  intro entry _
  by_cases h : entry.1 = key <;> simp [h]

theorem mem_keys_insertIndex (key : String) (n : Nat) (value : α) (entries : List (String × α))
    (other : String) : other ∈ (insertIndex key n value entries).map (·.1) ↔
      other = key ∨ other ∈ entries.map (·.1) := by
  induction entries with
  | nil => simp [insertIndex]
  | cons entry rest ih =>
    unfold insertIndex
    split
    · split
      · simp only [List.map_cons, List.mem_cons, ih]
        exact ⟨fun h => by rcases h with h | h | h <;> simp [h],
          fun h => by rcases h with h | h | h <;> simp [h]⟩
      · simp
    · simp

theorem ordered_insertIndex {key : String} {n : Nat} (value : α) {entries : List (String × α)}
    (hn : index? key = some n) (h : Ordered entries) (absent : key ∉ entries.map (·.1)) :
    Ordered (insertIndex key n value entries) := by
  induction entries with
  | nil => simp [insertIndex, Ordered]
  | cons entry rest ih =>
    obtain ⟨head, tail⟩ := List.pairwise_cons.mp h
    simp only [List.map_cons, List.mem_cons, not_or] at absent
    unfold insertIndex
    split
    next m hm =>
      split
      next lt =>
        refine List.pairwise_cons.mpr ⟨fun other mem => ?_, ih tail absent.2⟩
        rcases (mem_keys_insertIndex key n value rest other).mp mem with rfl | mem
        · simp only [Precedes, hm, hn]
          exact lt
        · exact head other mem
      next ge =>
        refine List.pairwise_cons.mpr ⟨fun other mem => ?_, h⟩
        have ne : m ≠ n := by
          rintro rfl
          exact absent.1 (index?_injective hn hm)
        have first : Precedes key entry.1 := by
          simp only [Precedes, hm, hn]
          omega
        rcases List.mem_cons.mp mem with rfl | mem
        · exact first
        · have after := head other mem
          unfold Precedes at after ⊢
          rw [hm] at after
          rw [hn]
          cases ho : index? other with
          | none => trivial
          | some k =>
            simp only [ho] at after ⊢
            omega
    next hm =>
      refine List.pairwise_cons.mpr ⟨fun other mem => ?_, h⟩
      rcases List.mem_cons.mp mem with rfl | mem
      · simp [Precedes, hn, hm]
      · have after := head other mem
        unfold Precedes at after ⊢
        rw [hm] at after
        rw [hn]
        cases ho : index? other with
        | none => trivial
        | some k => simp [ho] at after

theorem ordered_insert {entries : List (String × α)} (h : Ordered entries) (key : String)
    (value : α) : Ordered (insert entries key value) := by
  unfold insert
  split
  · unfold Ordered
    rw [keys_replace]
    exact h
  · next absent =>
    split
    next n hn => exact ordered_insertIndex value hn h absent
    next hn =>
      unfold Ordered
      rw [List.map_append]
      refine List.pairwise_append.mpr ⟨h, by simp, fun a ha b hb => ?_⟩
      have hb : b = key := by simpa using hb
      subst hb
      unfold Precedes
      rw [hn]
      cases index? a with
      | none => exact fun e => absent (e ▸ ha)
      | some _ => trivial

theorem ordered_arrange (pairs : List (String × α)) : Ordered (arrange pairs) := by
  suffices ∀ entries : List (String × α), Ordered entries →
      Ordered (pairs.foldl (fun entries pair => insert entries pair.1 pair.2) entries) from
    this [] (by simp [Ordered])
  induction pairs with
  | nil => exact fun _ h => h
  | cons pair rest ih => exact fun entries h => ih _ (ordered_insert h pair.1 pair.2)

theorem insertIndex_of_last {key : String} {n : Nat} (value : α) {entries : List (String × α)}
    (hn : index? key = some n) (h : ∀ other ∈ entries.map (·.1), Precedes other key) :
    insertIndex key n value entries = entries ++ [(key, value)] := by
  induction entries with
  | nil => rfl
  | cons entry rest ih =>
    have first := h entry.1 (by simp)
    unfold Precedes at first
    rw [hn] at first
    cases hm : index? entry.1 with
    | none => simp [hm] at first
    | some m =>
      simp only [hm] at first
      unfold insertIndex
      rw [hm]
      simp only [first, if_true, List.cons_append]
      rw [ih fun other mem => h other (List.mem_cons_of_mem _ mem)]

theorem insert_of_last {entries : List (String × α)} {key : String} (value : α)
    (h : ∀ other ∈ entries.map (·.1), Precedes other key) :
    insert entries key value = entries ++ [(key, value)] := by
  unfold insert
  rw [if_neg fun mem => (h key mem).ne rfl]
  split
  next n hn => exact insertIndex_of_last value hn h
  next => rfl

theorem arrange_of_ordered {entries : List (String × α)} (h : Ordered entries) :
    arrange entries = entries := by
  suffices ∀ front back : List (String × α), Ordered (front ++ back) →
      back.foldl (fun entries pair => insert entries pair.1 pair.2) front = front ++ back from
    this [] entries h
  intro front back
  induction back generalizing front with
  | nil => simp
  | cons pair rest ih =>
    intro ordered
    have before : ∀ other ∈ front.map (·.1), Precedes other pair.1 := by
      unfold Ordered at ordered
      rw [List.map_append] at ordered
      exact fun other mem => (List.pairwise_append.mp ordered).2.2 other mem pair.1 (by simp)
    rw [List.foldl_cons, insert_of_last pair.2 before, ih _ (by simpa using ordered)]
    simp

end Record

/-- A mapping from texts to values, its keys in the order of a record. -/
structure Record (α : Type) where
  entries : List (String × α)
  ordered : Record.Ordered entries

namespace Record

variable {α : Type}

/-- The record that arises by inserting the pairs one after another. -/
def ofList (pairs : List (String × α)) : Record α :=
  ⟨arrange pairs, ordered_arrange pairs⟩

def keys (r : Record α) : List String :=
  r.entries.map (·.1)

instance : EmptyCollection (Record α) := ⟨ofList []⟩

theorem ext_entries {r s : Record α} (h : r.entries = s.entries) : r = s := by
  cases r
  cases s
  cases h
  rfl

theorem ofList_entries (r : Record α) : ofList r.entries = r :=
  ext_entries (arrange_of_ordered r.ordered)

end Record

end CMakeScript
