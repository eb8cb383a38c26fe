import RaftAdmin.Command.Elect

/-!
# Running a command

A command is checked, run, and its outcome turned into text for the operator and an exit code.
-/

namespace RaftAdmin

/-- The act of a command. -/
def Command.act (command : Command) (c : Configuration) : Act Int :=
  match command.task with
  | .info => runInfo c command.group
  | .elect address? => runElect c command.group address?
  | .quorumAdd values => runQuorumAdd c command.group values
  | .quorumRemove values => runQuorumRemove c command.group values
  | .setPriority values => runSetPriority c command.group values

namespace Shell

/-- Shows why a command was not run. -/
def refuse (command : Command) (e : AdminError) : Script Int := do
  Script.mention e.fragments
  Script.mention ["Usage: ", command.task.usage]
  Script.mention [command.task.description]
  pure e.exitCode

/-- The event for a command that starts. -/
def running (command : Command) : LogEvent := .info .shell ("Running " ++ command.task.name)

/-- The event for a command that failed. -/
def failed (command : Command) (e : AdminError) : LogEvent :=
  ⟨.error, .shell, command.task.name ++ " failed: " ++ e.message, some e.kind⟩

/-- Shows why a command failed. -/
def reportFailure (command : Command) (e : AdminError) : Script Int := do
  Script.call (.log (failed command e))
  Script.mention e.fragments
  pure e.exitCode

/-- Checks and runs a command; the value is the exit code. -/
def execute (c : Configuration) (command : Command) : Script Int :=
  match command.validate with
  | .error e => refuse command e
  | .ok () => do
    Script.call (.log (running command))
    match ← (command.act c).run with
    | .ok code => pure code
    | .error e => reportFailure command e

end Shell

end RaftAdmin
