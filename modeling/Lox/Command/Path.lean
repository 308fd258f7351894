/-!
Where a path leads, in a world whose working directory holds a known list of files and whose other
directories (the root, the parents of the working directory) are known only to exist. A path is
walked one component at a time, as the system opens a file: `.` stays, `..` goes up, a name is
looked up in the directory reached so far, nothing can be looked up inside a file, and a slash at
the end asks for a directory. `Path.locate` gives the place or the system's reason for refusing.
-/
namespace Lox.Command

/-- Why the system refuses a path, with the numbers it reports them by. -/
inductive OsError where
  /-- A component names nothing. -/
  | notFound
  /-- A file stands where a directory is needed. -/
  | notDirectory
  /-- A directory was read as a file. -/
  | isDirectory
  /-- A component is longer than 255 bytes, or the path longer than 4095. -/
  | nameTooLong
  deriving DecidableEq, Repr

/-- The system's text for a refusal. -/
def OsError.message : OsError → String
  | .notFound => "No such file or directory (os error 2)"
  | .notDirectory => "Not a directory (os error 20)"
  | .isDirectory => "Is a directory (os error 21)"
  | .nameTooLong => "File name too long (os error 36)"

/-- What a path leads to. -/
inductive Place where
  /-- The working directory, whose files are known. -/
  | workDir
  /-- Another directory, in which nothing is known. -/
  | otherDir
  /-- A file of the working directory, by its name. -/
  | file (name : String)
  deriving DecidableEq, Repr

namespace Path

/-- The longest name a directory holds, in bytes. -/
def nameLimit : Nat := 255

/-- The longest path the system accepts, in bytes. -/
def pathLimit : Nat := 4095

/-- One component of a path, from the place reached so far; `known` tells the names of the working
directory's files. -/
def step (known : String → Bool) : Place → String → Except OsError Place
  | .file _, _ => .error .notDirectory
  | p, "." => .ok p
  | _, ".." => .ok .otherDir
  | p, name =>
    if name.utf8ByteSize > nameLimit then .error .nameTooLong
    else match p with
      | .workDir => if known name then .ok (.file name) else .error .notFound
      | _ => .error .notFound

/-- The components of a path: the parts between slashes, empty ones left out. -/
def components (path : String) : List String :=
  (path.splitOn "/").filter (· ≠ "")

/-- Where a path leads: from the root if it starts with a slash, else from the working directory,
through each component; a file reached by a path that ends in a slash is refused. -/
def locate (known : String → Bool) (path : String) : Except OsError Place :=
  if path.isEmpty then .error .notFound
  else if path.utf8ByteSize > pathLimit then .error .nameTooLong
  else
    let start := if path.startsWith "/" then Place.otherDir else .workDir
    match (components path).foldlM (step known) start with
    | .ok (.file name) => if path.endsWith "/" then .error .notDirectory else .ok (.file name)
    | r => r

end Path

end Lox.Command
