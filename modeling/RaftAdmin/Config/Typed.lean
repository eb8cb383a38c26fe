import RaftAdmin.Config.Basic
import RaftAdmin.Decimal.Binary64
import RaftAdmin.Log.Format

/-!
# Typed properties

Typed getters read the resolved value of a key as a number, a truth value, a log format, a list or
a span of time.

## The model

Each getter is a reader applied to the resolved value. A reader that refuses the value gives
`typeMismatch` with the value as it was resolved, blanks included; only a span of time that is a
negative number is quoted as that number.
-/

namespace RaftAdmin

/-- Reads a value as `kind`. -/
def readAs {α : Type} (kind : ValueKind) (reader : List Char → Option α) (k : PropertyKey)
    (value : String) : Except ConfigError α :=
  match reader value.toList with
  | some a => .ok a
  | none => .error (.typeMismatch k.name value kind)

/-- Reads a truth value in any case. -/
def readBool? (cs : List Char) : Option Bool :=
  let word := String.ofList (cs.map Char.toLower)
  if word = "true" then some true else if word = "false" then some false else none

/-- What messages call the list of log formats. -/
def logFormatKind : ValueKind := .choice "quorumsh::logging::LogFormat"

/-- Reads the name of a log format. -/
def readLogFormat? (cs : List Char) : Option LogFormat :=
  (LogFormat.read (String.ofList cs)).toOption

namespace Configuration

/-- The value as a 32-bit integer. -/
def getInt (c : Configuration) (k : PropertyKey) : Except ConfigError Int :=
  c.get k >>= readAs .integer (fun cs => Text.readInt? (Nat.pow 2 31) (Text.trimChars cs)) k

/-- The value as a 64-bit integer. -/
def getLong (c : Configuration) (k : PropertyKey) : Except ConfigError Int :=
  c.get k >>= readAs .long (fun cs => Text.readInt? (Nat.pow 2 63) (Text.trimChars cs)) k

/-- The value as a double-precision number. -/
def getDouble (c : Configuration) (k : PropertyKey) : Except ConfigError Binary64 :=
  c.get k >>= readAs .double (fun cs => Binary64.read? (Text.trimChars cs)) k

/-- The value as a truth value. -/
def getBool (c : Configuration) (k : PropertyKey) : Except ConfigError Bool :=
  c.get k >>= readAs .boolean readBool? k

/-- The value as a log format. -/
def getLogFormat (c : Configuration) (k : PropertyKey) : Except ConfigError LogFormat :=
  c.get k >>= readAs logFormatKind readLogFormat? k

/-- The nonblank parts of the value between the occurrences of a delimiter, trimmed. -/
def getList (c : Configuration) (k : PropertyKey) (delimiter : String) :
    Except ConfigError (List String) :=
  (c.get k).map fun value =>
    ((Text.splitOn delimiter value).map Text.trim).filter (!·.isEmpty)

/-- The value as a span of time in milliseconds. -/
def getDuration (c : Configuration) (k : PropertyKey) : Except ConfigError Nat :=
  match c.getLong k with
  | .error e => .error e
  | .ok (.ofNat ms) => .ok ms
  | .ok (.negSucc n) =>
    .error (.typeMismatch k.name (Text.signedNumeral (.negSucc n)) .duration)

end Configuration

end RaftAdmin
