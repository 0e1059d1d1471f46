import CMakeScript.Path

/-!
# Absolute paths and their texts

In an absolute path there are only names. So following it goes down from directory to directory, and
the text of a path leads to it from everywhere: `resolve_text`. What a path text is resolved to is
such a path: `isProper_resolve`.
-/

namespace CMakeScript

namespace Path

/-- The segment names something in a directory. -/
def IsStep (segment : String) : Prop :=
  segment ≠ "" ∧ segment ≠ "." ∧ segment ≠ ".." ∧ '/' ∉ segment.toList

def IsProper (path : Path) : Prop := ∀ name ∈ path, IsStep name

instance (segment : String) : Decidable (IsStep segment) := inferInstanceAs (Decidable (_ ∧ _))

instance (path : Path) : Decidable path.IsProper :=
  inferInstanceAs (Decidable (∀ name ∈ path, IsStep name))

/-- Without dots, following segments only leaves out the empty ones. -/
theorem foldl_follow_of_undotted {segments : List String}
    (plain : ∀ segment ∈ segments, segment ≠ "." ∧ segment ≠ "..") (directory : Path) :
    segments.foldl follow directory = directory ++ segments.filter (· ≠ "") := by
  induction segments generalizing directory with
  | nil => exact (List.append_nil directory).symm
  | cons segment rest ih =>
    obtain ⟨dot, dots⟩ := plain segment List.mem_cons_self
    have later := ih fun other mem => plain other (List.mem_cons_of_mem _ mem)
    by_cases empty : segment = ""
    · subst empty
      exact later directory
    · rw [List.foldl_cons, later]
      simp [follow, empty, dot, dots]

theorem foldl_follow {path : Path} (h : path.IsProper) (directory : Path) :
    path.foldl follow directory = directory ++ path := by
  have filled : path.filter (· ≠ "") = path :=
    List.filter_eq_self.mpr fun name mem => decide_eq_true (h name mem).1
  rw [foldl_follow_of_undotted fun name mem => ⟨(h name mem).2.1, (h name mem).2.2.1⟩, filled]

/-! ### Path texts are resolved to paths -/

theorem isProper_dropLast {path : Path} (h : path.IsProper) : Path.IsProper path.dropLast :=
  fun name mem => h name (List.dropLast_subset path mem)

theorem isProper_concat {path : Path} (h : path.IsProper) {name : String} (step : IsStep name) :
    Path.IsProper (path ++ [name]) := by
  intro other mem
  rcases List.mem_append.mp mem with before | last
  · exact h other before
  · rw [List.mem_singleton.mp last]
    exact step

theorem isProper_follow {directory : Path} (h : directory.IsProper) {segment : String}
    (free : '/' ∉ segment.toList) : Path.IsProper (follow directory segment) := by
  unfold follow
  split
  next => exact h
  next other =>
    split
    next => exact isProper_dropLast h
    next up =>
      simp only [Bool.or_eq_true, beq_iff_eq, not_or] at other up
      exact isProper_concat h ⟨other.1, other.2, up, free⟩

theorem isProper_foldl_follow {segments : List String}
    (free : ∀ segment ∈ segments, '/' ∉ segment.toList) {directory : Path}
    (h : directory.IsProper) : Path.IsProper (segments.foldl follow directory) := by
  induction segments generalizing directory with
  | nil => exact h
  | cons segment rest ih =>
    have next := isProper_follow h (free segment List.mem_cons_self)
    exact ih (fun other mem => free other (List.mem_cons_of_mem _ mem)) next

theorem not_slash_of_mem_segments {text segment : String} (mem : segment ∈ segments text) :
    '/' ∉ segment.toList := by
  obtain ⟨field, inside, rfl⟩ := List.mem_map.mp mem
  rw [String.toList_ofList]
  exact Text.not_mem_of_mem_fields inside

theorem isProper_resolve {directory : Path} (h : directory.IsProper) (text : String) :
    Path.IsProper (resolve directory text) := by
  have free : ∀ segment ∈ segments text, '/' ∉ segment.toList :=
    fun _ mem => not_slash_of_mem_segments mem
  unfold resolve
  split
  · exact isProper_foldl_follow free fun _ mem => absurd mem List.not_mem_nil
  · exact isProper_foldl_follow free h

/-! ### The text of a path leads to it -/

theorem isAbsolute_text (path : Path) : isAbsolute path.text = true := by
  simp [isAbsolute, text]

theorem segments_intercalate {names : List String} (ne : names ≠ [])
    (free : ∀ name ∈ names, '/' ∉ name.toList) : segments ("/".intercalate names) = names :=
  Text.fields_intercalate rfl ne free

theorem segments_text {path : Path} (h : path.IsProper) (ne : path ≠ []) :
    segments path.text = "" :: path := by
  obtain ⟨name, rest, rfl⟩ := List.exists_cons_of_ne_nil ne
  have cut : text (name :: rest) = "/".intercalate ("" :: name :: rest) := by
    rw [String.intercalate_cons_cons, String.empty_append]
    rfl
  rw [cut]
  refine segments_intercalate (List.cons_ne_nil _ _) fun segment mem => ?_
  rcases List.mem_cons.mp mem with rfl | inside
  · exact List.not_mem_nil
  · exact (h segment inside).2.2.2

theorem resolve_text {path : Path} (h : path.IsProper) (directory : Path) :
    resolve directory path.text = path := by
  rw [resolve, if_pos (isAbsolute_text path)]
  cases path with
  | nil => rfl
  | cons name rest =>
    rw [segments_text h (List.cons_ne_nil _ _), List.foldl_cons]
    exact foldl_follow h []

end Path

end CMakeScript
