import RaftAdmin.Shell.Arguments

/-!
# Help

What is shown instead of running a command: help, the version, or the complaint about the arguments.

## The model

A text is made of plain pieces and emphasised words, and goes to the operator's stream in fragments:
an emphasised word is a fragment, and so is all plain text between two of them. Help on the program
has its entries in two columns; help on a command has the explanation of each option on a line of
its own.
-/

namespace RaftAdmin.Help

/-- The name of the program, unless it was started under another one. -/
def programName : String := "quorumsh"

/-- The version of the program. -/
def version : String := "0.1.0"

/-- What the program is. -/
def about : String := "Administrative shell for Raft consensus groups"

/-! ### Pieces -/

/-- A piece of a text. -/
inductive Piece where
  /-- Text without emphasis. -/
  | plain (text : String)
  /-- Emphasised text. -/
  | word (text : String)
deriving DecidableEq, Repr

/-- The fragments of a text; `front` is plain text in front of it. -/
def fragmentsAfter (front : String) : List Piece → List String
  | [] => [front]
  | .plain text :: ps => fragmentsAfter (front ++ text) ps
  | .word text :: ps => front :: text :: fragmentsAfter "" ps

/-- The fragments of a text. -/
def fragmentsOf (text : List Piece) : List String := fragmentsAfter "" text

/-! ### Entries -/

/-- One thing that help explains. -/
structure Entry where
  /-- The blanks in front of the first word. -/
  indent : Nat
  /-- The words to type. -/
  words : List String
  /-- The value after them. -/
  value : String
  /-- What it is for. -/
  text : String

/-- Blanks. -/
def blanks (n : Nat) : String := String.ofList (List.replicate n ' ')

namespace Entry

/-- The entry of a task. -/
def ofTask (t : Task) : Entry := ⟨2, [t.name], "", t.description⟩

/-- The entry of an option. -/
def ofOption (o : CliOption) : Entry := ⟨6, ["--" ++ o.name], o.shownValue, o.description⟩

/-- The entry of help itself. -/
def help : Entry := ⟨2, ["-h", "--help"], "", "Print help"⟩

/-- The entry of the version. -/
def version : Entry := ⟨2, ["-V", "--version"], "", "Print version"⟩

/-- What is to be typed, with the explanation from `gap` on. -/
def pieces (e : Entry) (gap : String) : List Piece :=
  .plain (blanks e.indent) :: (e.words.map Piece.word).intersperse (.plain ", ")
    ++ [.plain (e.value ++ gap ++ e.text ++ "\n")]

/-- How many characters stand in front of the gap. -/
def width (e : Entry) : Nat :=
  e.indent + (Text.joinWith ", " e.words).length + e.value.length

/-- The entry with its explanation in a column. -/
def inColumn (column : Nat) (e : Entry) : List Piece := e.pieces (blanks (column - e.width))

/-- The entry with its explanation on a line of its own. -/
def onTwoLines (e : Entry) : List Piece := e.pieces ("\n" ++ blanks 10)

end Entry

/-- Entries in two columns, two blanks apart. -/
def columns (entries : List Entry) : List Piece :=
  let column := entries.foldl (fun w e => max w (e.width + 2)) 0
  entries.flatMap (Entry.inColumn column)

/-- The entries of what may stand on a side. -/
def optionEntries (side : CliSide) : List Entry :=
  side.options.map Entry.ofOption ++ Entry.help :: (if side.hasVersion then [.version] else [])

/-- What a text is about, and how the program is called. -/
def opening (about program arguments : String) : List Piece :=
  [.plain (about ++ "\n\n"), .word "Usage:", .plain " ", .word program,
    .plain (" " ++ arguments ++ "\n\n")]

/-- Help on the program. -/
def ofProgram (program : String) : List Piece :=
  opening about program "[OPTIONS] [COMMAND]"
    ++ .word "Commands:" :: .plain "\n" :: columns (Task.kinds.map Entry.ofTask)
    ++ .plain "\n" :: .word "Options:" :: .plain "\n" :: columns (optionEntries none)

/-- Help on a command. -/
def ofTask (program : String) (task : Task) : List Piece :=
  opening task.description (program ++ " " ++ task.name) "[OPTIONS]"
    ++ .word "Options:" :: .plain "\n"
      :: (optionEntries (some task)).flatMap Entry.onTwoLines

/-! ### What is shown -/

/-- The complaint about the arguments. -/
def complaint : Arguments.Stop → String
  | .unexpected word => "unexpected argument '" ++ word ++ "' found"
  | .unknownCommand word => "unrecognized subcommand '" ++ word ++ "'"
  | .missingValue o => "a value is required for '" ++ o.shown ++ "' but none was supplied"
  | .badValue o value =>
    -- a choice is compared with what is shown of a value, any other value has to be a text first
    if value.text?.isNone && o ≠ .logFormat then
      "invalid UTF-8 was detected in one or more arguments"
    else "invalid value '" ++ value.shown ++ "' for '" ++ o.shown ++ "'"
  | .repeated o => "the argument '" ++ o.shown ++ "' cannot be used multiple times"
  | .needlessValue flag value =>
    "unexpected value '" ++ value ++ "' for '" ++ flag ++ "' found; no more were expected"
  | .help _ => ""
  | .version => ""

/-- What is shown if the arguments name no command to run. -/
def pieces (program : String) : Arguments.Stop → List Piece
  | .help none => ofProgram program
  | .help (some task) => ofTask program task
  | .version => [.plain (programName ++ " " ++ version ++ "\n")]
  | stop => [.word "error:", .plain (" " ++ complaint stop ++ "\n")]

/-- What is shown, in fragments. -/
def fragments (program : String) (stop : Arguments.Stop) : List String :=
  fragmentsOf (pieces program stop)

/-- The exit code: to have asked for help or for the version is no error. -/
def exitCode : Arguments.Stop → Int
  | .help _ => exitOk
  | .version => exitOk
  | _ => exitError

end RaftAdmin.Help
