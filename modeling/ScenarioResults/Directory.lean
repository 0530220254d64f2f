/-!
# Directories

A flat directory of files, and how a relative path is followed in it: segments are separated by
slashes, empty segments and single dots stay in place, and a path that goes on below a file is an error
of its own kind.
-/

namespace ScenarioResults

/-- Why a file cannot be read: nothing has the path, the path leads to a directory or goes on below
a file, or the contents are no UTF-8. -/
inductive IoFault where
  | notFound
  | isDirectory
  | notDirectory
  | notText
  deriving DecidableEq, Repr, Inhabited

/-- The text of an I/O fault. -/
def IoFault.message : IoFault → String
  | notFound => "No such file or directory (os error 2)"
  | isDirectory => "Is a directory (os error 21)"
  | notDirectory => "Not a directory (os error 20)"
  | notText => "stream did not contain valid UTF-8"

/-- An entry of a directory: a file with its contents, or an empty directory. -/
inductive Entry where
  | file (data : ByteArray)
  | directory
  deriving Inhabited

/-- The entries by name, the latest first. -/
structure Directory where
  entries : List (String × Entry) := []
  deriving Inhabited

namespace Directory

/-- Add an entry, in place of one with the same name. -/
def put (d : Directory) (name : String) (entry : Entry) : Directory :=
  { entries := (name, entry) :: d.entries.filter (·.1 != name) }

mutual

/-- Follow the segments of a path from the directory itself. -/
def follow (d : Directory) : List String → Except IoFault ByteArray
  | [] => .error .isDirectory
  | segment :: rest =>
    if segment = "" ∨ segment = "." then d.follow rest
    else
      match d.entries.lookup segment with
      | none => .error .notFound
      | some .directory => d.followBelow rest
      | some (.file data) => if rest.isEmpty then .ok data else .error .notDirectory

/-- Follow the segments of a path from an empty directory inside. -/
def followBelow (d : Directory) : List String → Except IoFault ByteArray
  | [] => .error .isDirectory
  | segment :: rest =>
    if segment = "" ∨ segment = "." then d.followBelow rest
    else if segment = ".." then d.follow rest
    else .error .notFound

end

/-- Read the text of the file at a path. -/
def readText (d : Directory) (path : String) : Except IoFault String :=
  if path.startsWith "/" || path.isEmpty then .error .notFound
  else
    match d.follow (path.splitOn "/") with
    | .error fault => .error fault
    | .ok data =>
      match String.fromUTF8? data with
      | some text => .ok text
      | none => .error .notText

end Directory

end ScenarioResults
