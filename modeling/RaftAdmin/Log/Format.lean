/-!
# Log formats

Logs are written as text or as JSON. The name of a format is read in any case.
-/

namespace RaftAdmin

/-- How log lines are written. -/
inductive LogFormat where
  /-- For people. -/
  | text
  /-- For programs. -/
  | json
deriving DecidableEq, Repr

namespace LogFormat

/-- Reads the name of a format; the error is the message for the operator. -/
def read (s : String) : Except String LogFormat :=
  let name := String.ofList (s.toList.map Char.toLower)
  if name = "text" then .ok .text
  else if name = "json" then .ok .json
  else .error ("unknown log format: " ++ name)

end LogFormat

end RaftAdmin
