import CMakeScript.Proofs.ModuleReading
import CMakeScript.Proofs.Paths
import CMakeScript.Proofs.VariableNames

/-!
# The files that script modules are installed as

The rule of a script module stays below the module directory, and the name of the module can be read
off it: `scriptInstall_stays_below`. But a path does not tell one slash from several, so the dots at
the beginning of a name and repeated dots make no difference to the file: `installed_apart_iff`.
-/

namespace CMakeScript

/-! ### What a rule says -/

/-- The directory and the file name that a rule gives to the file it installs. -/
def Directive.renamed? (d : Directive) : Option (String × String) :=
  match d.arguments with
  | [kind, _, place, directory, rename, file] =>
    if [d.name, kind, place, rename] = ["install", "FILES", "DESTINATION", "RENAME"] then
      some (directory, file)
    else none
  | _ => none

/-- The path that a path text leads to from its first segment, which must be the given one. -/
def Path.below? (root text : String) : Option Path :=
  match segments text with
  | first :: rest => if first = root then some (rest.foldl follow []) else none
  | [] => none

/-- The file that a rule installs, as its path below the module directory. -/
def installedBy? (rule : String) : Option Path :=
  match Lexer.read rule with
  | some [d] => d.renamed?.bind fun target =>
    Path.below? (reference "INSTALL_LMOD") (target.1 ++ "/" ++ target.2)
  | _ => none

theorem renamed?_install (files directory file : String) :
    Directive.renamed? ⟨"install", ["FILES", files, "DESTINATION", directory, "RENAME", file]⟩ =
      some (directory, file) := by
  simp [Directive.renamed?]

theorem read_scriptInstall {name : String} (h : isName name = true) :
    Lexer.read (Section.scriptInstall name) = some [⟨"install",
      ["FILES", reference (Variable.sources name), "DESTINATION", Section.scriptDirectory name,
        "RENAME", Section.scriptFile name]⟩] := by
  obtain ⟨m, reading, final⟩ := (line_scriptInstall h).row
  exact reading.read final

/-! ### The parts of a name -/

theorem intercalate_moduleParts (name : String) :
    ".".intercalate (Section.moduleParts name) = name :=
  Text.intercalate_fields rfl name

theorem exists_moduleParts (name : String) :
    ∃ parents leaf, Section.moduleParts name = parents ++ [leaf] := by
  have ne : Section.moduleParts name ≠ [] := by
    simpa [Section.moduleParts] using Text.fields_ne_nil '.' name.toList
  exact ⟨_, _, (List.dropLast_concat_getLast ne).symm⟩

theorem not_dot_of_mem_moduleParts {name part : String} (mem : part ∈ Section.moduleParts name) :
    '.' ∉ part.toList := by
  obtain ⟨field, inside, rfl⟩ := List.mem_map.mp mem
  rw [String.toList_ofList]
  exact Text.not_mem_of_mem_fields inside

theorem ne_of_mem_toList {a b : String} {c : Char} (mem : c ∈ a.toList) (free : c ∉ b.toList) :
    a ≠ b := by
  rintro rfl
  exact free mem

section Split

variable {name leaf : String} {parents : List String}

theorem file_ne (leaf : String) {other : String} (free : 'l' ∉ other.toList) :
    leaf ++ ".lua" ≠ other :=
  ne_of_mem_toList (c := 'l') (by simp) free

variable (split : Section.moduleParts name = parents ++ [leaf])

include split

theorem scriptDirectory_eq :
    Section.scriptDirectory name = "/".intercalate (reference "INSTALL_LMOD" :: parents) := by
  rw [Section.scriptDirectory, split, List.dropLast_concat]

theorem ne_dots_directories : ∀ segment ∈ parents, segment ≠ "." ∧ segment ≠ ".." := by
  intro segment mem
  have own : segment ∈ Section.moduleParts name := by
    rw [split]
    exact List.mem_append_left _ mem
  have free := not_dot_of_mem_moduleParts own
  exact ⟨(ne_of_mem_toList (c := '.') (by decide) free).symm,
    (ne_of_mem_toList (c := '.') (by decide) free).symm⟩

theorem scriptFile_eq : Section.scriptFile name = leaf ++ ".lua" := by
  rw [Section.scriptFile, split, List.getLastD_concat]

variable (h : isName name = true)

include h

theorem not_slash_of_split : ∀ part ∈ parents ++ [leaf], '/' ∉ part.toList := by
  intro part mem found
  rw [← split] at mem
  exact not_mem_of_isName h (by decide) (mem_of_mem_moduleParts mem found)

theorem not_slash_directories :
    ∀ segment ∈ reference "INSTALL_LMOD" :: parents, '/' ∉ segment.toList := by
  intro segment mem
  rcases List.mem_cons.mp mem with rfl | inside
  · decide
  · exact not_slash_of_split split h segment (List.mem_append_left _ inside)

theorem not_slash_file : '/' ∉ (leaf ++ ".lua").toList := by
  rw [String.toList_append, List.mem_append, not_or]
  exact ⟨not_slash_of_split split h leaf (by simp), by decide⟩

theorem segments_target :
    Path.segments (Section.scriptDirectory name ++ "/" ++ Section.scriptFile name) =
      reference "INSTALL_LMOD" :: (parents ++ [leaf ++ ".lua"]) := by
  have whole : Section.scriptDirectory name ++ "/" ++ Section.scriptFile name =
      "/".intercalate (reference "INSTALL_LMOD" :: (parents ++ [leaf ++ ".lua"])) := by
    rw [scriptDirectory_eq split, scriptFile_eq split, ← List.cons_append,
      String.intercalate_append_of_ne_nil (List.cons_ne_nil _ _) (List.cons_ne_nil _ _),
      String.intercalate_singleton]
  rw [whole]
  refine Path.segments_intercalate (List.cons_ne_nil _ _) fun segment mem => ?_
  rw [← List.cons_append] at mem
  rcases List.mem_append.mp mem with above | last
  · exact not_slash_directories split h segment above
  · rw [List.mem_singleton.mp last]
    exact not_slash_file split h

/-- The parts of a name lead from the module directory to the file, empty ones left out. -/
theorem installedBy?_scriptInstall : installedBy? (Section.scriptInstall name) =
    some (parents.filter (· ≠ "") ++ [leaf ++ ".lua"]) := by
  have plain : ∀ segment ∈ parents ++ [leaf ++ ".lua"], segment ≠ "." ∧ segment ≠ ".." := by
    intro segment mem
    rcases List.mem_append.mp mem with above | last
    · exact ne_dots_directories split segment above
    · rw [List.mem_singleton.mp last]
      exact ⟨file_ne leaf (by decide), file_ne leaf (by decide)⟩
  have filled : leaf ++ ".lua" ≠ "" := file_ne leaf (by decide)
  have below : Path.below? (reference "INSTALL_LMOD")
      (Section.scriptDirectory name ++ "/" ++ Section.scriptFile name) =
        some (parents.filter (· ≠ "") ++ [leaf ++ ".lua"]) := by
    unfold Path.below?
    rw [segments_target split h]
    dsimp only
    rw [if_pos rfl, Path.foldl_follow_of_undotted plain, List.nil_append, List.filter_append]
    simp [filled]
  unfold installedBy?
  rw [read_scriptInstall h]
  dsimp only
  rw [renamed?_install, Option.bind_some]
  exact below

theorem not_semicolon_scriptInstall : ';' ∉ (Section.scriptInstall name).toList := by
  -- CMake takes an unquoted argument with a semicolon for several arguments.
  have own : ';' ∉ name.toList := not_mem_of_isName h (by decide)
  have part {part : String} (mem : part ∈ parents ++ [leaf]) : ';' ∉ part.toList := by
    rw [← split] at mem
    exact fun found => own (mem_of_mem_moduleParts mem found)
  have sources : ';' ∉ (reference (Variable.sources name)).toList := by
    simp [reference, Variable.sources, own]
  have directory : ';' ∉ (Section.scriptDirectory name).toList := by
    rw [scriptDirectory_eq split]
    intro mem
    obtain between | ⟨segment, inside, found⟩ := Text.mem_of_mem_intercalate mem
    · exact absurd between (by decide)
    · rcases List.mem_cons.mp inside with rfl | above
      · exact absurd found (by decide)
      · exact part (List.mem_append_left _ above) found
  have file : ';' ∉ (Section.scriptFile name).toList := by
    rw [scriptFile_eq split]
    simp [part (List.mem_append_right parents (List.mem_singleton_self leaf))]
  unfold Section.scriptInstall
  simp only [String.toList_append, List.mem_append, not_or]
  exact ⟨⟨⟨⟨⟨⟨by decide, sources⟩, by decide⟩, directory⟩, by decide⟩, file⟩, by decide⟩

end Split

/-- The rule of a script module has six arguments that nothing splits, its directory and its file
are below the module directory, and the name of the module is put together from their parts. -/
theorem scriptInstall_stays_below {name : String} (h : isName name = true) :
    ∃ directory file parents leaf,
      Lexer.read (Section.scriptInstall name) = some [⟨"install",
        ["FILES", reference (Variable.sources name), "DESTINATION", directory, "RENAME", file]⟩] ∧
      ';' ∉ (Section.scriptInstall name).toList ∧
      Path.segments directory = reference "INSTALL_LMOD" :: parents ∧
      (∀ segment ∈ parents, segment ≠ "." ∧ segment ≠ "..") ∧
      '/' ∉ file.toList ∧ file ≠ "." ∧ file ≠ ".." ∧
      file = leaf ++ ".lua" ∧ ".".intercalate (parents ++ [leaf]) = name := by
  obtain ⟨parents, leaf, split⟩ := exists_moduleParts name
  have segments : Path.segments (Section.scriptDirectory name) =
      reference "INSTALL_LMOD" :: parents := by
    rw [scriptDirectory_eq split]
    exact Path.segments_intercalate (List.cons_ne_nil _ _) (not_slash_directories split h)
  have file := scriptFile_eq split
  refine ⟨_, _, parents, leaf, read_scriptInstall h, not_semicolon_scriptInstall split h, segments,
    ne_dots_directories split, ?_, ?_, ?_, file, ?_⟩
  · rw [file]
    exact not_slash_file split h
  · rw [file]
    exact file_ne leaf (by decide)
  · rw [file]
    exact file_ne leaf (by decide)
  · rw [← split]
    exact intercalate_moduleParts name

theorem scriptInstall_stays_below_dots :
    isName "..lua" = true ∧ ∃ directory file parents leaf,
      Lexer.read (Section.scriptInstall "..lua") = some [⟨"install",
        ["FILES", reference (Variable.sources "..lua"), "DESTINATION", directory, "RENAME",
          file]⟩] ∧
      ';' ∉ (Section.scriptInstall "..lua").toList ∧
      Path.segments directory = reference "INSTALL_LMOD" :: parents ∧
      (∀ segment ∈ parents, segment ≠ "." ∧ segment ≠ "..") ∧
      '/' ∉ file.toList ∧ file ≠ "." ∧ file ≠ ".." ∧
      file = leaf ++ ".lua" ∧ ".".intercalate (parents ++ [leaf]) = "..lua" :=
  ⟨by decide, scriptInstall_stays_below (by decide)⟩

/-! ### Names of the same file -/

/-- The characters without the dots at the beginning, if those are left out, and with a single dot
for several in a row. -/
def squeezeFrom (afterDot : Bool) : List Char → List Char
  | [] => []
  | c :: rest =>
    if c = '.' then if afterDot then squeezeFrom true rest else c :: squeezeFrom true rest
    else c :: squeezeFrom false rest

/-- The name without the dots at its beginning, and with a single dot for several in a row. -/
def squeezeDots (name : String) : String :=
  String.ofList (squeezeFrom true name.toList)

theorem squeezeFrom_append {piece : List Char} (free : '.' ∉ piece) (rest : List Char) :
    squeezeFrom false (piece ++ rest) = piece ++ squeezeFrom false rest := by
  induction piece with
  | nil => rfl
  | cons c more ih =>
    rw [List.mem_cons, not_or] at free
    rw [List.cons_append, squeezeFrom, if_neg (Ne.symm free.1), ih free.2, List.cons_append]

theorem squeezeFrom_true_append {piece : List Char} (ne : piece ≠ []) (free : '.' ∉ piece)
    (rest : List Char) : squeezeFrom true (piece ++ rest) = piece ++ squeezeFrom false rest := by
  obtain ⟨c, more, rfl⟩ := List.exists_cons_of_ne_nil ne
  rw [List.mem_cons, not_or] at free
  rw [List.cons_append, squeezeFrom, if_neg (Ne.symm free.1), squeezeFrom_append free.2,
    List.cons_append]

theorem squeezeDots_of_not_mem {part : String} (free : '.' ∉ part.toList) :
    squeezeDots part = part := by
  by_cases empty : part = ""
  · rw [empty]
    rfl
  · have same := squeezeFrom_true_append (by simpa using empty) free []
    rw [List.append_nil] at same
    rw [squeezeDots, same, squeezeFrom, List.append_nil, String.ofList_toList]

theorem squeezeDots_dot (rest : String) : squeezeDots ("." ++ rest) = squeezeDots rest := by
  simp [squeezeDots, squeezeFrom]

theorem squeezeDots_append_dot {part : String} (filled : part ≠ "") (free : '.' ∉ part.toList)
    (rest : String) : squeezeDots (part ++ "." ++ rest) = part ++ "." ++ squeezeDots rest := by
  have same := squeezeFrom_true_append (by simpa using filled) free ('.' :: rest.toList)
  apply String.ext
  simpa [squeezeDots, squeezeFrom] using same

/-- Squeezing a name leaves out the empty parts before the last one. -/
theorem squeezeDots_intercalate {parents : List String} {leaf : String}
    (free : ∀ part ∈ parents ++ [leaf], '.' ∉ part.toList) :
    squeezeDots (".".intercalate (parents ++ [leaf])) =
      ".".intercalate (parents.filter (· ≠ "") ++ [leaf]) := by
  induction parents with
  | nil => exact squeezeDots_of_not_mem (free leaf (by simp))
  | cons part rest ih =>
    have later := ih fun other mem => free other (List.mem_cons_of_mem _ mem)
    have own : '.' ∉ part.toList := free part (by simp)
    have joined (more : List String) : ".".intercalate (part :: more ++ [leaf]) =
        part ++ "." ++ ".".intercalate (more ++ [leaf]) :=
      String.intercalate_cons_of_ne_nil (by simp)
    rw [joined]
    -- The dot behind an empty part stands at the beginning or right behind another dot.
    by_cases filled : part = ""
    · subst filled
      rw [String.empty_append, squeezeDots_dot, later]
      rfl
    · rw [squeezeDots_append_dot filled own, later, List.filter_cons_of_pos (by simpa using filled),
        joined]

/-- The parts that squeezing leaves are found again in the squeezed name. -/
theorem fields_squeezeDots {name leaf : String} {parents : List String}
    (split : Section.moduleParts name = parents ++ [leaf]) :
    Section.moduleParts (squeezeDots name) = parents.filter (· ≠ "") ++ [leaf] := by
  have free : ∀ part ∈ parents ++ [leaf], '.' ∉ part.toList := by
    rw [← split]
    exact fun part mem => not_dot_of_mem_moduleParts mem
  have kept : ∀ part ∈ parents.filter (· ≠ "") ++ [leaf], '.' ∉ part.toList := by
    intro part mem
    rcases List.mem_append.mp mem with above | last
    · exact free part (List.mem_append_left _ (List.mem_filter.mp above).1)
    · exact free part (List.mem_append_right _ last)
  have joined := intercalate_moduleParts name
  rw [split] at joined
  rw [← joined, squeezeDots_intercalate free]
  exact Text.fields_intercalate rfl (by simp) kept

/-- Two script modules are installed as different files exactly if their names differ after all
dots at the beginning and all but one of the dots in a row have been left out. -/
theorem installed_apart_iff {a b : String} (ha : isName a = true) (hb : isName b = true) :
    ∃ x y, installedBy? (Section.scriptInstall a) = some x ∧
      installedBy? (Section.scriptInstall b) = some y ∧ (x ≠ y ↔ squeezeDots a ≠ squeezeDots b) := by
  obtain ⟨parents, leaf, split⟩ := exists_moduleParts a
  obtain ⟨others, last, cut⟩ := exists_moduleParts b
  refine ⟨_, _, installedBy?_scriptInstall split ha, installedBy?_scriptInstall cut hb, ?_⟩
  refine not_congr ⟨fun same => ?_, fun same => ?_⟩
  · obtain ⟨above, file⟩ := List.append_inj' same rfl
    have leaves : leaf = last := (append_left_inj ".lua").mp (List.singleton_inj.mp file)
    rw [← intercalate_moduleParts (squeezeDots a), ← intercalate_moduleParts (squeezeDots b),
      fields_squeezeDots split, fields_squeezeDots cut, above, leaves]
  · have parts := congrArg Section.moduleParts same
    rw [fields_squeezeDots split, fields_squeezeDots cut] at parts
    obtain ⟨above, leaves⟩ := List.append_inj' parts rfl
    rw [above, List.singleton_inj.mp leaves]

theorem installed_apart_trailing :
    ∃ x y, installedBy? (Section.scriptInstall "a.b") = some x ∧
      installedBy? (Section.scriptInstall "a.b.") = some y ∧ x ≠ y := by
  have first : isName "a.b" = true := by decide
  have second : isName "a.b." = true := by decide
  obtain ⟨x, y, own, other, apart⟩ := installed_apart_iff first second
  exact ⟨x, y, own, other, apart.mpr (by decide)⟩

/-- Of two modules whose names differ in a doubled dot, one is installed over the other. -/
theorem doubled_dot_overwrites :
    isName "a.b" = true ∧ isName "a..b" = true ∧ "a.b" ≠ "a..b" ∧
      installedBy? (Section.scriptInstall "a.b") = some ["a", "b.lua"] ∧
      installedBy? (Section.scriptInstall "a..b") = some ["a", "b.lua"] := by
  have single : Section.moduleParts "a.b" = ["a"] ++ ["b"] := by decide
  have doubled : Section.moduleParts "a..b" = ["a", ""] ++ ["b"] := by decide
  have first : isName "a.b" = true := by decide
  have second : isName "a..b" = true := by decide
  exact ⟨first, second, by decide, installedBy?_scriptInstall single first,
    installedBy?_scriptInstall doubled second⟩

end CMakeScript
