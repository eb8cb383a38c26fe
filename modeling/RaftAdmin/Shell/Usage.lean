import RaftAdmin.Command.Basic
import RaftAdmin.Script.Basic

/-!
# Usage

What is shown when no command is named.
-/

namespace RaftAdmin.Usage

/-- The usage of the program and of all commands. -/
def fragments : List String :=
  ["Usage: quorumsh [--conf <PATH>] [--log-format <text|json>] <command> [options]\n", "\n",
      "Available commands:\n"]
    ++ Task.usages.flatMap fun usage => ["  ", usage, "\n"]

/-- Shows the usage. -/
def print : Script (Except String Unit) := Script.call (.print fragments)

end RaftAdmin.Usage
