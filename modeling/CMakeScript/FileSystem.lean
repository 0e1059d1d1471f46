/-!
# File systems

What the command line needs of a file system: to read one file, and to write another in a directory
that need not be there yet.
-/

namespace CMakeScript

/-- What reading a file comes to. -/
inductive Reading where
  | missing
  /-- What is at the path cannot be read as a file, for the given reason. -/
  | unreadable (reason : String)
  | content (octets : List UInt8)

/-- A file system in which actions of type `m` read and write. What is not possible is answered with
the reason. -/
structure FileSystem (m : Type → Type) where
  read : String → m Reading
  /-- Makes the directory at a path and those in which it lies, as far as they are missing. -/
  makeDirectory : String → m (Except String Unit)
  /-- Makes a text the whole content of the file at a path. -/
  write : String → String → m (Except String Unit)

end CMakeScript
