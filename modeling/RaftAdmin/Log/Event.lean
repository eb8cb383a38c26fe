/-!
# Log events

The program reports what it does as events with a level, the part of the program they come from,
and a message.
-/

namespace RaftAdmin

/-- How important an event is. -/
inductive Level where
  /-- A failure that ends a command. -/
  | error
  /-- A failure that is coped with. -/
  | warn
  /-- A step of a command. -/
  | info
  /-- A detail. -/
  | debug
  /-- A finer detail; the program reports none, but a filter may ask for them. -/
  | trace
deriving DecidableEq, Repr

/-- The rank of a level: a filter that lets a level pass lets lower ranks pass. -/
def Level.rank : Level → Nat
  | error => 1
  | warn => 2
  | info => 3
  | debug => 4
  | trace => 5

/-- How logs write the level. -/
def Level.text : Level → String
  | error => "ERROR"
  | warn => "WARN"
  | info => "INFO"
  | debug => "DEBUG"
  | trace => "TRACE"

/-- The part of the program that reports an event. -/
inductive Reporter where
  /-- The program itself, at its start. -/
  | program
  /-- The configuration. -/
  | configuration
  /-- Reading the site file. -/
  | siteFile
  /-- The resolution of a group. -/
  | resolution
  /-- Asking one candidate after the other. -/
  | retry
  /-- The cluster model. -/
  | clusterModel
  /-- The connection to a real cluster. -/
  | http
  /-- Running a command. -/
  | shell
  /-- The command that moves leadership. -/
  | elect
  /-- The commands that add and remove peers. -/
  | quorum
  /-- The command that sets priorities. -/
  | priority
deriving DecidableEq, Repr

/-- The target that log filters know the reporter by. -/
def Reporter.target : Reporter → String
  | program => "quorumsh"
  | configuration => "quorumsh::config"
  | siteFile => "quorumsh::config::site"
  | resolution => "quorumsh::resolver"
  | retry => "quorumsh::retry"
  | clusterModel => "quorumsh::rpc::memory"
  | http => "quorumsh::rpc::http"
  | shell => "quorumsh::shell"
  | elect => "quorumsh::commands::elect"
  | quorum => "quorumsh::commands::quorum"
  | priority => "quorumsh::commands::priority"

/-- One event. -/
structure LogEvent where
  /-- How important it is. -/
  level : Level
  /-- Where it comes from. -/
  reporter : Reporter
  /-- What happened. -/
  message : String
  /-- The kind of error that ended a command. -/
  kind? : Option String
deriving DecidableEq, Repr

namespace LogEvent

/-- The names of the fields of an event. -/
def fieldNames (e : LogEvent) : List String :=
  if e.kind?.isSome then ["message", "kind"] else ["message"]

/-- The level, the message and the kind of error. -/
def text (e : LogEvent) : String :=
  let line := e.level.text ++ " " ++ e.message
  match e.kind? with
  | some kind => line ++ " kind=\"" ++ kind ++ "\""
  | none => line

/-- A debug event. -/
def debug (reporter : Reporter) (message : String) : LogEvent := ⟨.debug, reporter, message, none⟩

/-- An info event. -/
def info (reporter : Reporter) (message : String) : LogEvent := ⟨.info, reporter, message, none⟩

/-- A warning. -/
def warn (reporter : Reporter) (message : String) : LogEvent := ⟨.warn, reporter, message, none⟩

end LogEvent

end RaftAdmin
