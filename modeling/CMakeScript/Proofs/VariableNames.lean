import CMakeScript.Wiring

/-!
# Names of the variables of modules

The variables of a module are named after the module, with an ending for each kind of list. No two
kinds end alike, so the variables of two modules are named apart: `append_ending_inj`. The fixed
variables for files end in their own way too.
-/

namespace CMakeScript

/-- The end of a name, its last character first. The kinds of variables differ in it. -/
def nameEnd (name : String) : List Char := name.toList.reverse.take 5

theorem nameEnd_append (a : String) {suffix : String} (long : 5 ≤ suffix.toList.length) :
    nameEnd (a ++ suffix) = nameEnd suffix := by
  unfold nameEnd
  rw [String.toList_append, List.reverse_append, List.take_append_of_le_length]
  rwa [List.length_reverse]

theorem append_ne {a suffix other : String} (long : 5 ≤ suffix.toList.length)
    (apart : nameEnd other ≠ nameEnd suffix) : a ++ suffix ≠ other := by
  intro same
  rw [← same, nameEnd_append a long] at apart
  exact apart rfl

theorem append_left_inj {a b : String} (suffix : String) : a ++ suffix = b ++ suffix ↔ a = b := by
  constructor
  · intro same
    have chars := congrArg String.toList same
    rw [String.toList_append, String.toList_append] at chars
    exact String.ext (List.append_cancel_right chars)
  · rintro rfl
    rfl

theorem reference_inj {a b : String} : reference a = reference b ↔ a = b := by
  constructor
  · intro same
    have chars := congrArg String.toList ((append_left_inj _).mp same)
    rw [String.toList_append, String.toList_append] at chars
    exact String.ext (List.append_cancel_left chars)
  · rintro rfl
    rfl

namespace Variable

theorem sources_inj {a b : String} : sources a = sources b ↔ a = b := append_left_inj _

/-- A variable whose name ends in another way is not one for sources. -/
theorem sources_ne (name : String) {other : String}
    (apart : nameEnd other ≠ nameEnd "_SOURCES") : sources name ≠ other :=
  append_ne (by decide) apart

/-- What follows the name of a module in the names of its variables. -/
def endings : List String := ["_SOURCES", "_LIBRARIES", "_LIBDIRS", "_INCDIRS", "_DEFINES"]

/-- The variables that belong to no module. -/
def fixed : List String := [installLua, installLib, installConf, installBin, copyDirectories]

theorem long_of_mem_endings {ending : String} (mem : ending ∈ endings) :
    5 ≤ ending.toList.length := by
  have all : ∀ ending ∈ endings, 5 ≤ ending.toList.length := by decide
  exact all ending mem

theorem append_ending_inj {a b s t : String} (hs : s ∈ endings) (ht : t ∈ endings) :
    a ++ s = b ++ t ↔ a = b ∧ s = t := by
  have apart : ∀ s ∈ endings, ∀ t ∈ endings, nameEnd s = nameEnd t → s = t := by decide
  constructor
  · intro same
    have ends : nameEnd s = nameEnd t := by
      rw [← nameEnd_append a (long_of_mem_endings hs), same,
        nameEnd_append b (long_of_mem_endings ht)]
    obtain rfl := apart s hs t ht ends
    exact ⟨(append_left_inj s).mp same, rfl⟩
  · rintro ⟨rfl, rfl⟩
    rfl

theorem append_ending_not_mem_fixed (a : String) {s : String} (hs : s ∈ endings) :
    a ++ s ∉ fixed := by
  have apart : ∀ name ∈ fixed, ∀ s ∈ endings, nameEnd name ≠ nameEnd s := by decide
  intro mem
  exact apart _ mem s hs (nameEnd_append a (long_of_mem_endings hs))

end Variable

/-- Of the variables of a native module only the first is one for sources. -/
theorem NativeModule.sources_not_mem_tail (m : NativeModule) (name : String) :
    Variable.sources name ∉ m.lists.tail.map (·.1) := by
  show _ ∉ Variable.endings.tail.map (m.name ++ ·)
  intro mem
  obtain ⟨ending, inside, same⟩ := List.mem_map.mp mem
  have parts := (Variable.append_ending_inj (List.mem_of_mem_tail inside) (by decide)).mp same
  rw [parts.2] at inside
  exact absurd inside (by decide)

end CMakeScript
