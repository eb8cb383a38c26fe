import RaftAdmin.Text.System

/-!
# Paths

A path names a file or a directory by the names along the way, separated by slashes. Names need not
be texts.

## The model

Slashes at the end, repeated slashes and the name `.` after another name lead nowhere new, so the
last name of a path is found by passing over them. The name `..` leads upwards and names no file.
-/

namespace RaftAdmin.Path

/-- A path below a directory; an absolute path stands for itself. -/
def join (directory name : String) : String :=
  if Text.startsWith ['/'] name.toList || directory.isEmpty then name
  else if Text.endsWith ['/'] directory.toList then directory ++ name
  else directory ++ "/" ++ name

/-- The names along a path, without those that lead nowhere. -/
def names (path : OsText) : List OsText :=
  (path.splitAt '/').filter fun name => !(name = .text "" || name = .text ".")

/-- Whether a path starts at the root. -/
def isAbsolute (path : OsText) : Bool := (path.dropFirst? '/').isSome

/-- The names that lead from the root to where a path leads from a directory. -/
def resolve (directory : List OsText) (path : OsText) : List OsText :=
  (names path).foldl
    (fun place name => if name = .text ".." then place.dropLast else place ++ [name])
    (if isAbsolute path then [] else directory)

/-- The paths that a path leads through, itself last. -/
def stages (path : String) : List String :=
  let parts := Text.splitAt '/' path
  (List.range parts.length).map fun n => String.intercalate "/" (parts.take (n + 1))

/-- The last name of a path, unless it leads upwards. -/
def fileName? (path : OsText) : Option OsText :=
  match (names path).getLast? with
  | some name => if name = .text ".." then none else some name
  | none => none

/-- The extension of a file name: what follows its last point, if something precedes that. -/
def extensionOf? (name : OsText) : Option OsText :=
  match name.cutLast '.' with
  | some (stem, extension) => if stem = .text "" then none else some extension
  | none => none

/-- The extension of a path. -/
def extension? (path : OsText) : Option OsText := (fileName? path).bind extensionOf?

end RaftAdmin.Path
