import RaftAdmin.Shell.Execute
import RaftAdmin.Shell.Help
import RaftAdmin.Shell.Usage
import RaftAdmin.Site.Path

/-!
# Running the shell

Reads the arguments and runs the command they name.
-/

namespace RaftAdmin.Shell

/-- The name the program was started under, if it is a text. -/
def programName (words : List OsText) : String :=
  (((words.head?.map Arguments.normalizeArgument).bind Path.fileName?).bind OsText.text?).getD
    Help.programName

/-- Shows what is to be shown if the arguments name no command to run. -/
def explain (words : List OsText) (stop : Arguments.Stop) : Script Int := do
  let _ ← Script.call (.print (Help.fragments (programName words) stop))
  pure (Help.exitCode stop)

/-- Shows the usage because no command was named. -/
def explainUsage : Script Int := do
  let _ ← Usage.print
  pure exitError

/-- Runs the program with its arguments, the name of the program first; the value is the exit
code. -/
def run (c : Configuration) (words : List OsText) : Script Int :=
  match Arguments.read words with
  | .error stop => explain words stop
  | .ok line =>
    match line.command? with
    | some command => execute c command
    | none => explainUsage

end RaftAdmin.Shell
