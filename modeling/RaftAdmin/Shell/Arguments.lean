import RaftAdmin.Log.Format
import RaftAdmin.Shell.Option
import RaftAdmin.Text.System

/-!
# Command line arguments

Reads the arguments of the program: options and the name of a command, each side of the command
line on its own.

## The model

Arguments are texts of the system. Older scripts write options with a single dash; `normalizeAll`
adds the second one first, but only to arguments that are texts: one that is none stays as it is,
whatever it starts with.

An option takes its value from the same argument, after an equals sign, or from the next argument,
unless that one starts with a dash. A value in the next argument is *pending* until another option
or the end of the side comes; only then are the option and its value checked. So of two faults the
one that is met first in this sense is reported. A path may have any bytes, the other values have to
be texts. After the argument `--` nothing may follow.
-/

namespace RaftAdmin.Arguments

/-! ### Single-dash options -/

/-- Whether an argument is an option of more than one character with a single dash. -/
def isSingleDash : List Char → Bool
  | '-' :: c :: cs =>
    c.isAlpha && (match cs with
      | [] => false
      | d :: _ => d ≠ '=')
  | _ => false

/-- The text of an argument with a second dash if it needs one. -/
def normalizeWord (word : String) : String :=
  if isSingleDash word.toList then "-" ++ word else word

/-- The texts of arguments with a second dash wherever one is needed. -/
def normalize (words : List String) : List String := words.map normalizeWord

/-- The argument with a second dash if it is a text that needs one. -/
def normalizeArgument : OsText → OsText
  | .text word => .text (normalizeWord word)
  | .raw bytes h => .raw bytes h

/-- The arguments with a second dash wherever a text needs one. -/
def normalizeAll (words : List OsText) : List OsText := words.map normalizeArgument

/-! ### Results -/

/-- What the arguments ask for. -/
structure CommandLine where
  /-- The path of the site file. -/
  path? : Option OsText
  /-- The log format. -/
  logFormat? : Option LogFormat
  /-- The command. -/
  command? : Option Command
deriving DecidableEq, Repr

/-- The path of the site file as it is shown. -/
def CommandLine.conf? (line : CommandLine) : Option String := line.path?.map OsText.shown

/-- Why arguments name no command to run. -/
inductive Stop where
  /-- Help on a side was asked for. -/
  | help (side : CliSide)
  /-- The version was asked for. -/
  | version
  /-- Nobody expects the argument. -/
  | unexpected (word : String)
  /-- There is no command of this name. -/
  | unknownCommand (word : String)
  /-- The option has no value. -/
  | missingValue (option : CliOption)
  /-- The value of the option is none of those possible, or no text. -/
  | badValue (option : CliOption) (value : OsText)
  /-- The option is given twice. -/
  | repeated (option : CliOption)
  /-- The flag has a value. -/
  | needlessValue (flag value : String)
deriving DecidableEq, Repr

/-! ### One side -/

/-- An argument by its shape. -/
inductive Word where
  /-- The two dashes. -/
  | dashes
  /-- A name after two dashes, with the value after its equals sign. -/
  | long (name : OsText) (value? : Option OsText)
  /-- What follows one dash; its first character counts, if it is one. -/
  | short (first? : Option Char) (flags : OsText)
  /-- Anything else. -/
  | plain

/-- The shape of an argument. -/
def Word.of (word : OsText) : Word :=
  match word.dropFirst? '-' with
  | none => .plain
  | some flags =>
    match flags.dropFirst? '-' with
    | some name =>
      if name = .text "" then .dashes
      else
        match name.cutFirst '=' with
        | some (name, value) => .long name (some value)
        | none => .long name none
    | none =>
      match flags.firstPiece? with
      | some first? => .short first? flags
      | none => .plain

/-- An option with the value that was given. -/
abbrev Given := CliOption × Option OsText

/-- What was read of a side. -/
structure Reading where
  /-- The options that were checked, in order. -/
  taken : List Given
  /-- The option that was read last, while its value is not checked. -/
  pending? : Option Given
deriving Inhabited

namespace Reading

/-- Nothing was read. -/
def empty : Reading := ⟨[], none⟩

/-- Whether the last option still lacks a value. -/
def awaitsValue (r : Reading) : Bool :=
  match r.pending? with
  | some (_, none) => true
  | _ => false

/-- Gives the last option a value. -/
def supply (r : Reading) (value : OsText) : Reading :=
  { r with pending? := r.pending?.map fun (o, _) => (o, some value) }

/-- The log format of this name, which is written in lower case. -/
def logFormatNamed? (name : String) : Option LogFormat :=
  if name = "text" then some .text else if name = "json" then some .json else none

/-- Checks the value of an option. -/
def checkValue (o : CliOption) (value : OsText) : Except Stop Unit :=
  match o with
  | .conf => if value = .text "" then .error (.missingValue o) else .ok ()
  | .logFormat =>
    if value = .text "" then .error (.missingValue o)
    else if (value.text?.bind logFormatNamed?).isNone then .error (.badValue o value)
    else .ok ()
  | _ => if value.text?.isNone then .error (.badValue o value) else .ok ()

/-- Checks an option that was given. -/
def check (r : Reading) : Given → Except Stop Unit
  | (o, none) => if o.isList then .ok () else .error (.missingValue o)
  | (o, some value) =>
    if !o.isList && r.taken.any fun g => g.1 = o then .error (.repeated o) else checkValue o value

/-- Checks an option and takes it. -/
def take (r : Reading) (given : Given) : Except Stop Reading := do
  r.check given
  pure { r with taken := r.taken ++ [given] }

/-- Checks the pending option and takes it. -/
def settle (r : Reading) : Except Stop Reading :=
  match r.pending? with
  | none => .ok r
  | some given => ({ r with pending? := none } : Reading).take given

/-- Reads an option with the value in the same argument, if there is one. -/
def meet (r : Reading) (o : CliOption) (value? : Option OsText) : Except Stop Reading := do
  let r ← r.settle
  match value? with
  | some value => r.take (o, some value)
  | none => pure { r with pending? := some (o, none) }

/-- Reads a flag that stops the reading. -/
def meetFlag (r : Reading) (stop : Stop) : Except Stop Reading := do
  let _ ← r.settle
  throw stop

/-- The values of an option, in order. -/
def given (r : Reading) (o : CliOption) : List OsText :=
  r.taken.filterMap fun g => if g.1 = o then g.2 else none

/-- The values of an option that has texts, in order. -/
def values (r : Reading) (o : CliOption) : List String := (r.given o).filterMap OsText.text?

/-- The text of an option that is given at most once. -/
def value? (r : Reading) (o : CliOption) : Option String := (r.values o).head?

/-- The path of the site file. -/
def path? (r : Reading) : Option OsText := (r.given .conf).head?

end Reading

/-- The task of this name; only a text is one. -/
def taskOf? (side : CliSide) (word : OsText) : Option Task := word.text?.bind side.task?

/-- The complaint about an argument that is neither an option nor a value. -/
def stray (side : CliSide) (word : OsText) : Stop :=
  if side.isNone then .unknownCommand word.shown else .unexpected word.shown

/-- The complaint about the argument after two dashes. -/
def strayAfterDashes (side : CliSide) (word : OsText) : Stop :=
  if (taskOf? side word).isSome then .unexpected word.shown else stray side word

/-- Reads a name after two dashes. -/
def readLong (side : CliSide) (r : Reading) (name : OsText) (value? : Option OsText) :
    Except Stop Reading :=
  match name.text?.bind side.option? with
  | some o => r.meet o value?
  | none =>
    let flag? : Option Stop :=
      if name = .text "help" then some (.help side)
      else if name = .text "version" ∧ side.hasVersion then some .version
      else none
    match flag?, value? with
    | none, _ => .error (.unexpected ("--" ++ name.shown))
    | some _, some value => .error (.needlessValue ("--" ++ name.shown) value.shown)
    | some stop, none => r.meetFlag stop

/-- Reads what follows one dash. -/
def readShort (side : CliSide) (r : Reading) (first? : Option Char) (flags : OsText) :
    Except Stop Reading :=
  match first? with
  | some c =>
    if c = 'h' then r.meetFlag (.help side)
    else if c = 'V' ∧ side.hasVersion then r.meetFlag .version
    else .error (.unexpected (String.ofList ['-', c]))
  | none => .error (.unexpected ("-" ++ flags.shown))

/-- Reads a side: what was read, and the task that ends the side with the arguments after it. -/
def readSide (side : CliSide) :
    List OsText → Reading → Except Stop (Reading × Option (Task × List OsText))
  | [], r => .ok (r, none)
  | w :: ws, r =>
    match if r.awaitsValue then none else taskOf? side w with
    | some task => .ok (r, some (task, ws))
    | none =>
      match Word.of w with
      | .dashes =>
        match ws with
        | [] => .ok (r, none)
        | v :: _ => .error (strayAfterDashes side v)
      | .long name value? => do readSide side ws (← readLong side r name value?)
      | .short first? flags => do readSide side ws (← readShort side r first? flags)
      | .plain => if r.awaitsValue then readSide side ws (r.supply w) else .error (stray side w)

/-! ### The whole command line -/

/-- The task with the values of its options. -/
def fill (r : Reading) : Task → Task
  | .info => .info
  | .elect _ => .elect (r.value? .address)
  | .quorumAdd _ => .quorumAdd (r.values (.list .addPeer))
  | .quorumRemove _ => .quorumRemove (r.values (.list .removePeer))
  | .setPriority _ => .setPriority (r.values (.list .addressPriority))

/-- The command that a side describes. -/
def commandOf (task : Task) (r : Reading) : Command :=
  ⟨fill r task, ⟨r.value? .peers, r.value? .groupId, r.value? .serviceId⟩⟩

/-- The command line with two sides; where both give a shared option the later one wins. -/
def assemble (before after : Reading) (command? : Option Command) : CommandLine :=
  ⟨after.path?.or before.path?,
    ((after.value? .logFormat).or (before.value? .logFormat)).bind Reading.logFormatNamed?, command?⟩

/-- Reads the arguments after the name of the program. -/
def readWords (words : List OsText) : Except Stop CommandLine := do
  let (before, rest?) ← readSide none words .empty
  match rest? with
  | none => pure (assemble (← before.settle) .empty none)
  | some (task, rest) =>
    let (after, _) ← readSide (some task) rest .empty
    let after ← after.settle
    let before ← before.settle
    pure (assemble before after (some (commandOf task after)))

/-- Reads all arguments, the name of the program first. -/
def read (words : List OsText) : Except Stop CommandLine := readWords ((normalizeAll words).drop 1)

end RaftAdmin.Arguments
