import CMakeScript.FileTree
import CMakeScript.Proofs.Paths
import Mathlib.Logic.Function.Basic

/-!
# What file systems do to files

Reading a file and making a directory change no file, and writing one sets the whole content of its
file or fails and changes no file. This is all that the program relies on: `FileSystem.Lawful`. File
trees are such file systems: `FileTree.lawful_fileSystem`.
-/

namespace CMakeScript

/-- The laws of a file system in whose states there are the given files. Of the texts under which a
file may be written only those of absolute paths count. -/
structure FileSystem.Lawful {σ : Type} (fs : FileSystem (StateM σ))
    (file : σ → Path → Option (List UInt8)) : Prop where
  read_keeps (text : String) (s : σ) : file ((fs.read text).run s).2 = file s
  makeDirectory_keeps (text : String) (s : σ) : file ((fs.makeDirectory text).run s).2 = file s
  write_sets {path : Path} (proper : path.IsProper) (content : String) (s : σ) :
    ((fs.write path.text content).run s).1 = .ok () →
      file ((fs.write path.text content).run s).2 =
        Function.update (file s) path (some content.toUTF8.toList)
  write_keeps {path : Path} (proper : path.IsProper) (content : String) (s : σ) {reason : String} :
    ((fs.write path.text content).run s).1 = .error reason →
      file ((fs.write path.text content).run s).2 = file s

namespace FileTree

/-- The content of the file at an absolute path. -/
def file? (tree : FileTree) (path : Path) : Option (List UInt8) :=
  match tree.get? path with
  | some (.file octets) => some octets
  | _ => none

theorem get?_set (tree : FileTree) {path : Path} (ne : path ≠ []) (entry : Entry) (other : Path) :
    (tree.set path entry).get? other = if other = path then some entry else tree.get? other := by
  cases other with
  | nil => rw [if_neg ne.symm, get?, get?]; rfl
  | cons name rest => exact Table.get?_set tree.entries path (name :: rest) entry

theorem ne_nil_of_get? {tree : FileTree} {path : Path} (h : tree.get? path ≠ some .directory) :
    path ≠ [] := by
  rintro rfl
  exact h rfl

theorem file?_set_directory {tree : FileTree} {path : Path} (free : tree.get? path = none) :
    (tree.set path .directory).file? = tree.file? := by
  have taken : tree.get? path ≠ some .directory := by simp [free]
  have ne := ne_nil_of_get? taken
  funext other
  rw [file?, file?, get?_set tree ne]
  by_cases same : other = path
  · rw [if_pos same, same, free]
  · rw [if_neg same]

theorem file?_set_file {tree : FileTree} {path : Path} (ne : path ≠ []) (octets : List UInt8) :
    (tree.set path (.file octets)).file? = Function.update tree.file? path (some octets) := by
  funext other
  rw [file?, get?_set tree ne]
  by_cases same : other = path
  · rw [if_pos same, same, Function.update_self]
  · rw [if_neg same, Function.update_of_ne same]
    rfl

theorem file?_makeDirectories (tree : FileTree) (path : Path) (segments : List String) :
    (tree.makeDirectories path segments).2.file? = tree.file? := by
  induction segments generalizing tree path with
  | nil => rfl
  | cons segment rest ih =>
    rw [makeDirectories]
    cases found : tree.get? (Path.follow path segment) with
    | none =>
      -- A directory is only put where nothing was, so it takes the place of no file.
      dsimp only
      cases checkName segment with
      | ok => rw [ih, file?_set_directory found]
      | error refusal => rfl
    | some entry =>
      cases entry with
      | directory => exact ih tree _
      | file octets => rfl

theorem eq_of_follow {tree : FileTree} {start goal : Path} {segments : List String}
    (h : tree.follow start segments = .ok goal) : goal = segments.foldl Path.follow start := by
  induction segments generalizing start with
  | nil => exact (Except.ok.inj h).symm
  | cons segment rest ih =>
    rw [follow] at h
    split at h
    next => cases h
    next => cases h
    next =>
      cases named : checkName segment with
      | ok =>
        rw [named] at h
        exact ih h
      | error refusal =>
        rw [named] at h
        cases h

theorem eq_of_locate {tree : FileTree} {directory goal : Path} {text : String}
    (h : tree.locate directory text = .ok goal) : goal = Path.resolve directory text := by
  rw [locate] at h
  split at h
  · cases h
  · exact eq_of_follow h

theorem file?_put (tree : FileTree) (path : Path) (octets : List UInt8) :
    (tree.put path octets).2.file? =
      if (tree.put path octets).1.isOk then Function.update tree.file? path (some octets)
      else tree.file? := by
  unfold put
  split
  next => rfl
  next other =>
    have taken : tree.get? path ≠ some .directory := by simpa [isDirectory] using other
    exact file?_set_file (ne_nil_of_get? taken) octets

theorem file?_writeFile (tree : FileTree) (directory : Path) (text : String)
    (octets : List UInt8) :
    (tree.writeFile directory text octets).2.file? =
      if (tree.writeFile directory text octets).1.isOk then
        Function.update tree.file? (Path.resolve directory text) (some octets)
      else tree.file? := by
  unfold writeFile
  cases found : tree.locate directory text with
  | error refusal => rfl
  | ok path =>
    dsimp only
    split
    · rfl
    · rw [← eq_of_locate found]
      exact file?_put tree path octets

theorem isOk_mapError {ε δ α : Type} (f : ε → δ) (x : Except ε α) :
    (x.mapError f).isOk = x.isOk := by
  cases x <;> rfl

theorem lawful_fileSystem (directory : Path) : (fileSystem directory).Lawful file? where
  read_keeps _ _ := rfl
  makeDirectory_keeps text tree :=
    file?_makeDirectories tree (origin directory text) (Path.segments text)
  write_sets {path} proper content tree done := by
    have changed := file?_writeFile tree directory path.text content.toUTF8.toList
    have possible := (isOk_mapError _ _).symm.trans (congrArg Except.isOk done)
    rw [Path.resolve_text proper] at changed
    exact changed.trans (if_pos possible)
  write_keeps {path} _ content tree _ failed := by
    have changed := file?_writeFile tree directory path.text content.toUTF8.toList
    have refused := (isOk_mapError _ _).symm.trans (congrArg Except.isOk failed)
    exact changed.trans (if_neg (Bool.eq_false_iff.mp refused))

end FileTree

end CMakeScript
