import RaftAdmin.Config.Error
import RaftAdmin.Site.Path

/-!
# File trees

The files that the program can see, and the directory it works in.

## The model

A tree lists files and directories by the names that lead to them from the root; what leads to one
of them, or to the working directory, is a directory too. A path is followed name by name, so that
a path through a file fails otherwise than a path to nothing.
-/

namespace RaftAdmin

/-- What is listed under a path. -/
inductive FileEntry where
  /-- A directory. -/
  | directory
  /-- A file with its bytes. -/
  | file (bytes : ByteArray)

/-- The files of a system, and a working directory. -/
structure FileTree where
  /-- The names that lead from the root to the working directory. -/
  workingDirectory : List OsText
  /-- The files and directories by the names that lead to them from the root. -/
  entries : List (List OsText × FileEntry)

namespace FileTree

/-- The tree of files with their paths. -/
def ofFiles (workingDirectory : List OsText) (files : List (OsText × FileEntry)) : FileTree :=
  ⟨workingDirectory, files.map fun (path, entry) => (Path.resolve workingDirectory path, entry)⟩

/-- Where a path has led so far. -/
inductive Place where
  /-- At a directory. -/
  | directory (names : List OsText)
  /-- At a file. -/
  | file (bytes : ByteArray)

/-- Whether names lead to something or through a directory to it. -/
def isDirectory (t : FileTree) (names : List OsText) : Bool :=
  names.isPrefixOf t.workingDirectory || t.entries.any fun e => names.isPrefixOf e.1

/-- What names lead to. -/
def find (t : FileTree) (names : List OsText) : Except FileFault Place :=
  match t.entries.lookup names with
  | some (.file bytes) => .ok (.file bytes)
  | _ => if t.isDirectory names then .ok (.directory names) else .error .notFound

/-- Follows one name. The directory above the root is the root. -/
def step (t : FileTree) : Place → OsText → Except FileFault Place
  | .file _, _ => .error .notDirectory
  | .directory names, name =>
    if name = .text "" || name = .text "." then .ok (.directory names)
    else if name = .text ".." then .ok (.directory names.dropLast)
    else t.find (names ++ [name])

/-- Follows a path. -/
def follow (t : FileTree) (path : OsText) : Except FileFault Place :=
  if path = .text "" then .error .notFound
  else
    (path.splitAt '/').foldlM t.step
      (.directory (if Path.isAbsolute path then [] else t.workingDirectory))

/-- Whether a path names a file. -/
def isFile (t : FileTree) (path : OsText) : Bool :=
  match t.follow path with
  | .ok (.file _) => true
  | _ => false

/-- Reads a file as text. -/
def readText (t : FileTree) (path : OsText) : Except FileFault String :=
  match t.follow path with
  | .error fault => .error fault
  | .ok (.file bytes) =>
    match String.fromUTF8? bytes with
    | some text => .ok text
    | none => .error .notText
  | .ok _ => .error .isDirectory

end FileTree

end RaftAdmin
