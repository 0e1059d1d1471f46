import CMakeScript.FileSystem
import CMakeScript.Path
import CMakeScript.Table

/-!
# File trees

A file tree says what there is at every absolute path. Following a path text through it needs a
directory for every segment, so a path through a file leads nowhere.
-/

namespace CMakeScript

/-- What there is at a path. -/
inductive Entry where
  | directory
  | file (octets : List UInt8)
  deriving DecidableEq, Repr

/-- Why something cannot be done at a path. -/
inductive Refusal where
  | missing
  | taken
  | notDirectory
  | isDirectory
  | longName
  | badName
  deriving DecidableEq, Repr

namespace Refusal

def text : Refusal → String
  | missing => "ENOENT: no such file or directory"
  | taken => "EEXIST: file already exists"
  | notDirectory => "ENOTDIR: not a directory"
  | isDirectory => "EISDIR: illegal operation on a directory"
  | longName => "ENAMETOOLONG: name too long"
  | badName => "EINVAL: invalid argument"

/-- The reason why a system call has failed. -/
def reason (call : String) (refusal : Refusal) : String := refusal.text ++ ", " ++ call

end Refusal

/-- The files and directories below the root. -/
structure FileTree where
  entries : Table Path Entry := {}
  deriving DecidableEq, Repr

namespace FileTree

/-- What there is at an absolute path. The root is a directory. -/
def get? (tree : FileTree) (path : Path) : Option Entry :=
  if path.isEmpty then some .directory else tree.entries.get? path

def set (tree : FileTree) (path : Path) (entry : Entry) : FileTree :=
  ⟨tree.entries.set path entry⟩

def isDirectory (tree : FileTree) (path : Path) : Bool := tree.get? path == some .directory

def checkName (name : String) : Except Refusal Unit :=
  if name.toList.contains '\x00' then .error .badName
  else if name.utf8ByteSize ≤ 255 then .ok ()
  else .error .longName

/-- Follows segments from a path. Every segment needs a directory to start from. -/
def follow (tree : FileTree) (path : Path) : List String → Except Refusal Path
  | [] => .ok path
  | segment :: rest =>
    match tree.get? path with
    | none => .error .missing
    | some (.file _) => .error .notDirectory
    | some .directory => do
      checkName segment
      tree.follow (Path.follow path segment) rest

/-- Where a path text starts. -/
def origin (directory : Path) (text : String) : Path :=
  if Path.isAbsolute text then [] else directory

/-- The absolute path to which a path text leads. -/
def locate (tree : FileTree) (directory : Path) (text : String) : Except Refusal Path :=
  if text.isEmpty then .error .missing
  else tree.follow (origin directory text) (Path.segments text)

def read (tree : FileTree) (directory : Path) (text : String) : Reading :=
  match (tree.locate directory text).toOption.bind tree.get? with
  | none => .missing
  | some .directory => .unreadable (Refusal.isDirectory.reason "read")
  | some (.file octets) => .content octets

/-- What an attempt to change a tree comes to: whether it was possible, and the tree after it. -/
abbrev Attempt := Except Refusal Unit × FileTree

/-- Makes the directories to which segments lead, as far as they are missing. -/
def makeDirectories (tree : FileTree) (path : Path) : List String → Attempt
  | [] => (.ok (), tree)
  | segment :: rest =>
    let next := Path.follow path segment
    match tree.get? next with
    | some .directory => tree.makeDirectories next rest
    | some (.file _) => (.error (if rest.isEmpty then .taken else .notDirectory), tree)
    | none =>
      match checkName segment with
      | .ok () => (tree.set next .directory).makeDirectories next rest
      | .error refusal => (.error refusal, tree)

def makeDirectory (tree : FileTree) (directory : Path) (text : String) : Attempt :=
  tree.makeDirectories (origin directory text) (Path.segments text)

/-- Makes octets the content of the file at an absolute path. Where a directory is, there is no file
to write. -/
def put (tree : FileTree) (path : Path) (octets : List UInt8) : Attempt :=
  if tree.isDirectory path then (.error .isDirectory, tree)
  else (.ok (), tree.set path (.file octets))

def writeFile (tree : FileTree) (directory : Path) (text : String) (octets : List UInt8) :
    Attempt :=
  match tree.locate directory text with
  | .ok path =>
    if (Path.segments text).getLast? == some "" then (.error .isDirectory, tree)
    else tree.put path octets
  | .error refusal => (.error refusal, tree)

/-- Writes a file, after making the directories in which it lies. -/
def write (tree : FileTree) (directory : Path) (text : String) (octets : List UInt8) : Attempt :=
  match tree.makeDirectory directory (Path.parent text) with
  | (.error refusal, tree) => (.error refusal, tree)
  | (.ok (), tree) => tree.writeFile directory text octets

/-- The file system of a program that runs in the given directory of a tree. Its reasons are worded
like those of a system call. -/
def fileSystem (directory : Path) : FileSystem (StateM FileTree) where
  read text := return (← get).read directory text
  makeDirectory text := modifyGet fun tree =>
    let (made, after) := tree.makeDirectory directory text
    (made.mapError (Refusal.reason ("mkdir '" ++ text ++ "'")), after)
  write text content := modifyGet fun tree =>
    let (written, after) := tree.writeFile directory text content.toUTF8.toList
    (written.mapError (Refusal.reason ("open '" ++ text ++ "'")), after)

end FileTree

end CMakeScript
