import RaftAdmin.Config.Error
import RaftAdmin.Text.Split

/-!
# Properties files

A properties file has one entry per line: a key and a value, separated by `=` or `:`.

## The model

Lines lose their blanks at both ends before they are looked at. Blank lines and lines that start
with `#` or `!` are comments. The first separator of a line ends the key, which may not be empty;
the value may be, and may contain further separators. The first line that is no entry is the error,
and its number counts all lines from one.
-/

namespace RaftAdmin.Properties

/-- Whether a trimmed line is a comment or blank. -/
def isComment : List Char → Bool
  | [] => true
  | c :: _ => c = '#' || c = '!'

/-- Whether a character separates a key from its value. -/
def isSeparator (c : Char) : Bool := c = '=' || c = ':'

/-- Reads a trimmed line as a key and a value. -/
def readEntry (line : List Char) : Option (String × String) :=
  match Text.cutFirst isSeparator line with
  | none => none
  | some (key, value) =>
    let key := Text.trimChars key
    if key.isEmpty then none
    else some (String.ofList key, String.ofList (Text.trimChars value))

/-- Reads lines, of which the first has a number; the error is the number of the first bad line. -/
def readLines : Nat → List String → Except Nat (List (String × String))
  | _, [] => .ok []
  | n, raw :: lines =>
    let line := Text.trimChars raw.toList
    if isComment line then readLines (n + 1) lines
    else
      match readEntry line with
      | none => .error n
      | some entry => (readLines (n + 1) lines).map (entry :: ·)

/-- The entries of a properties file in order. -/
def read (path contents : String) : Except ConfigError (List (String × String)) :=
  (readLines 1 (Text.lines contents)).mapError fun n => .siteSyntax path n

end RaftAdmin.Properties
