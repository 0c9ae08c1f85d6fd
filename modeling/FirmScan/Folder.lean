import FirmScan.FileFault

/-!
# A folder in memory

The files of a working directory, so that a run can be followed without a disk. The folder has no
folders in it, and of the directories above it nothing is known but that they are there.

**Paths.** A path is followed name by name, and the first name that leads nowhere ends the search.
An empty name, as between two slashes, and a single dot stay in the directory. Behind a file no
further name may follow, not even an empty one.
-/

namespace FirmScan

/-- Files by name. -/
structure Folder where
  files : List (String × String)
  deriving DecidableEq, Repr

namespace Folder

/-- Where the names of a path have led so far. -/
inductive Place where
  | inside
  | outside
  | file (text : String)
  deriving DecidableEq, Repr

/-- The most bytes that a name may have. -/
def maxName : Nat := 255

/-- A path has fewer bytes than this. -/
def pathLimit : Nat := 4096

/-- Follow one more name. -/
def step (f : Folder) (p : Place) (name : String) : Except FileFault Place :=
  match p with
  | .file _ => .error .notDirectory
  | .inside | .outside =>
    if name = "" || name = "." then .ok p
    else if name = ".." then .ok .outside
    else if name.utf8ByteSize > maxName then .error .nameTooLong
    else match p, f.files.lookup name with
      | .inside, some text => .ok (.file text)
      | _, _ => .error .notFound

/-- The text of the file at a path. -/
def read (f : Folder) (path : String) : Except FileFault String :=
  if path.utf8ByteSize ≥ pathLimit then .error .nameTooLong
  else
    let start : Place := if path.startsWith "/" then .outside else .inside
    match (path.splitOn "/").foldlM f.step start with
    | .error e => .error e
    | .ok (.file text) => .ok text
    | .ok _ => .error .isDirectory

end Folder

end FirmScan
