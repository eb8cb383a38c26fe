import RaftAdmin.Log.Line
import RaftAdmin.Program

/-!
# The command line

Collects the arguments, the environment and the site files, runs the program, and shows what it
leaves behind: its output on the standard output and its log on the standard error.

The network here is the unreachable one, so every request of a command fails. Arguments and paths
are texts here.
-/

namespace RaftAdmin.Main

/-- What the environment holds for the program. -/
def readEnvironment : IO Environment :=
  return ⟨← IO.getEnv "HOME", ← IO.getEnv "QUORUMSH_CONF_DIR", ← IO.getEnv "RUST_LOG"⟩

/-- What is found under a path, if anything is. -/
def readEntry (path : String) : IO (Option (OsText × FileEntry)) := do
  match ← (IO.FS.readBinFile path).toBaseIO with
  | .ok bytes => return some (path, .file bytes)
  | .error (.inappropriateType ..) => return some (path, .directory)
  | .error _ => return none

/-- The tree of the files with these paths, as far as there are any. -/
def readTree (paths : List String) : IO FileTree := do
  let workingDirectory ← IO.currentDir
  let entries ← (paths.flatMap Path.stages).filterMapM readEntry
  return .ofFiles (Path.names workingDirectory.toString) entries

end RaftAdmin.Main

/-- Runs the program and exits with its status. -/
def main (args : List String) : IO UInt32 := do
  let words : List RaftAdmin.OsText := ((← IO.appPath).toString :: args).map .text
  let env ← RaftAdmin.Main.readEnvironment
  let paths := (RaftAdmin.Program.sitePaths env words).filterMap RaftAdmin.OsText.text?
  let files ← RaftAdmin.Main.readTree paths
  let outcome := RaftAdmin.Program.run env files .unreachable words ()
  IO.print outcome.output
  outcome.log.forM fun e => IO.eprintln (e.line outcome.format)
  return (RaftAdmin.Program.exitStatus outcome.code).toUInt32
