import CMakeScript.Description.Issue

/-!
# Readings that collect issues

The parts of a piece of data are read independently of each other, so that all issues are found at
once. A reading is good if it has no issue, and then it has a value.
-/

namespace CMakeScript

/-- What became of reading something: the value, as far as there is one, and the issues. -/
structure Checked (α : Type) where
  value? : Option α
  issues : List Issue

namespace Checked

variable {α β : Type}

def good (value : α) : Checked α := ⟨some value, []⟩

def bad (place : Place) (fault : Fault) : Checked α := ⟨none, [⟨place, fault⟩]⟩

/-- Both readings, with the issues of both. There is a value if both have one. -/
instance : Applicative Checked where
  pure := good
  seq f x := ⟨f.value? <*> (x ()).value?, f.issues ++ (x ()).issues⟩

/-- A second reading that needs the value of the first. -/
def andThen (x : Checked α) (f : α → Checked β) : Checked β :=
  match x.value? with
  | some a => ⟨(f a).value?, x.issues ++ (f a).issues⟩
  | none => ⟨none, x.issues⟩

/-- The values that there are, in order, and all issues. -/
def collect (xs : List (Checked α)) : Checked (List α) :=
  ⟨some (xs.filterMap (·.value?)), xs.flatMap (·.issues)⟩

/-- Reads a part that may be missing. -/
def optional {δ : Type} (read : δ → Checked α) : Option δ → Checked (Option α)
  | none => good none
  | some d => some <$> read d

theorem value?_isSome_collect (xs : List (Checked α)) : (collect xs).value?.isSome = true := rfl

end Checked

end CMakeScript
