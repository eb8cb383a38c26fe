import RaftAdmin.Resolution.Request

/-!
# Options of the commands

The values of list options, and the priorities an operator asks for.

## The model

A list option may be repeated, and each of its values may hold several parts: addresses are
separated by commas, pairs of an address and a priority by semicolons. How the parts are spread over
the values makes no difference. Blank parts are skipped, and no parts at all is an error.
-/

namespace RaftAdmin

/-- The nonblank parts of all values of a list option, in order. -/
def listParts (separator : Char) (values : List String) : List String :=
  values.flatMap (Text.nonblankParts separator)

/-- What the parts of a list option say, which may not be nothing. -/
def readParts {α : Type} (option : ListOption) (read : String → Except AdminError α)
    (parts : List String) : Except AdminError (List α) :=
  match parts.mapM read with
  | .error e => .error e
  | .ok as => if as.isEmpty then .error (.missingInput option.text) else .ok as

/-- The addresses in the values of a list option. -/
def readAddresses (option : ListOption) (values : List String) :
    Except AdminError (List PeerAddress) :=
  readParts option readAddress (listParts ',' values)

/-- The error of a pair without a comma. -/
def malformedPair (pair : String) : AdminError :=
  .invalidArgument ("invalid address priority \"" ++ pair ++ "\", expected HOST:PORT,PRIORITY")

/-- The error of a pair whose priority is no number. -/
def malformedPriority (priority address : List Char) : AdminError :=
  .invalidArgument ("invalid priority \"" ++ String.ofList (Text.trimChars priority) ++ "\" for "
    ++ String.ofList (Text.trimChars address))

/-- Reads a pair `HOST:PORT,PRIORITY`, which the last comma separates. -/
def readPair (pair : String) : Except AdminError (PeerAddress × UInt32) :=
  match Text.cutLast (· == ',') pair.toList with
  | none => .error (malformedPair pair)
  | some (address, priority) =>
    match Text.readNat? UInt32.size (Text.trimChars priority) with
    | none => .error (malformedPriority priority address)
    | some n =>
      match readAddress (String.ofList address) with
      | .error e => .error e
      | .ok a => .ok (a, UInt32.ofNat n)

/-- The pairs in the values of the priority option. -/
def readPairs (values : List String) : Except AdminError (List (PeerAddress × UInt32)) :=
  readParts .addressPriority readPair (listParts ';' values)

end RaftAdmin
