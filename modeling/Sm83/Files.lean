/-!
# Files in a directory

The part of a file system that a run depends on: reading a whole file by its path.  A `FileReader` is
any way to do that.  `Directory.read` is one: a working directory that holds files and empty
directories, in which a path is followed component by component.

What lies outside of the working directory is unknown, so a path that leaves it finds nothing there.
Lengths are counted in bytes: a component has at most `longestName` of them, and a path with the zero
that ends it at most `longestPath`.
-/

namespace Sm83

/-- Why a file cannot be read. -/
inductive ReadError
  /-- A component of the path does not exist. -/
  | notFound
  /-- The path names a directory. -/
  | isDirectory
  /-- The path goes on behind a file. -/
  | notDirectory
  /-- The path or one of its components is longer than the system allows. -/
  | nameTooLong
  /-- The path has a zero character in it, which no path can have. -/
  | zeroInPath
  /-- Anything else, in the words of the system. -/
  | other (reason : String)
  deriving DecidableEq, Repr

/-- What is reported when a file cannot be read. -/
def ReadError.message : ReadError → String
  | .notFound => "No such file or directory (os error 2)"
  | .isDirectory => "Is a directory (os error 21)"
  | .notDirectory => "Not a directory (os error 20)"
  | .nameTooLong => "File name too long (os error 36)"
  | .zeroInPath => "file name contained an unexpected NUL byte"
  | .other reason => reason

/-- A way to read whole files by their paths. -/
abbrev FileReader := String → Except ReadError (List UInt8)

/-- What a name in a directory stands for. -/
inductive DirectoryEntry
  | file (bytes : List UInt8)
  /-- A directory with nothing in it. -/
  | emptyDirectory

/-- The names in the working directory and what they stand for. -/
structure Directory where
  entries : List (String × DirectoryEntry)

namespace Directory

/-- The most bytes that a component of a path can have. -/
def longestName : Nat := 255

/-- The most bytes that a path can have, with one for its end. -/
def longestPath : Nat := 4096

/-- Where the components of a path have led so far. -/
inductive Location
  /-- In the working directory. -/
  | working
  /-- In a directory inside it. -/
  | inside
  /-- In a directory around it. -/
  | outside
  /-- At a file. -/
  | file (bytes : List UInt8)

/-- The entry with a name. -/
def lookUp (d : Directory) (name : String) : Except ReadError Location :=
  if longestName < name.utf8ByteSize then .error .nameTooLong
  else match d.entries.find? (·.1 == name) with
  | none => .error .notFound
  | some (_, .file bytes) => .ok (.file bytes)
  | some (_, .emptyDirectory) => .ok .inside

/-- Follow one component of a path.  Empty components and `.` stay in a directory, `..` leaves
it. -/
def follow (d : Directory) (location : Location) (name : String) : Except ReadError Location :=
  match location with
  | .file _ => .error .notDirectory
  | .working =>
    if name = "" ∨ name = "." then .ok .working
    else if name = ".." then .ok .outside
    else d.lookUp name
  | .inside =>
    if name = "" ∨ name = "." then .ok .inside
    else if name = ".." then .ok .working
    else lookUp ⟨[]⟩ name
  | .outside =>
    if name = "" ∨ name = "." ∨ name = ".." then .ok .outside else lookUp ⟨[]⟩ name

/-- Read the file that a path names.  A path from the root starts outside of the working
directory. -/
def read (d : Directory) : FileReader := fun path => do
  if path.toList.contains (Char.ofNat 0) then throw .zeroInPath
  if path = "" then throw .notFound
  if longestPath ≤ path.utf8ByteSize then throw .nameTooLong
  let start := if path.startsWith "/" then Location.outside else .working
  match ← (path.splitOn "/").foldlM d.follow start with
  | .file bytes => return bytes
  | _ => throw .isDirectory

end Directory

end Sm83
