import RaftAdmin.Json.Writer
import RaftAdmin.Log.Event
import RaftAdmin.Log.Format

/-!
# Log lines

How an event is written to the log, for people or for programs. The lines bear no time.
-/

namespace RaftAdmin.LogEvent

/-- The line for people: the level, where the event comes from, and the message. -/
def textLine (e : LogEvent) : String :=
  let line := e.level.text ++ " " ++ e.reporter.target ++ ": " ++ e.message
  match e.kind? with
  | some kind => line ++ " kind=\"" ++ kind ++ "\""
  | none => line

/-- The line for programs. -/
def jsonLine (e : LogEvent) : String :=
  let fields := ("message", .ofString e.message)
    :: e.kind?.toList.map fun kind => ("kind", Json.Value.ofString kind)
  Json.render (.ofMembers
    [("level", .ofString e.level.text), ("fields", .ofMembers fields),
      ("target", .ofString e.reporter.target)])

/-- The line of an event in a format. -/
def line (format : LogFormat) (e : LogEvent) : String :=
  match format with
  | .text => e.textLine
  | .json => e.jsonLine

end RaftAdmin.LogEvent
