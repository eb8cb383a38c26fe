import RaftAdmin.Text.Numeral
import RaftAdmin.Yaml.Cursor

/-!
# Quoted scalars

Scalars between single or double quotes.

## The model

Words and gaps alternate. Between single quotes a quote is written twice and nothing else is
special; between double quotes a backslash starts an escape, which may also be an escaped line
break. A quoted scalar may span lines, but not the start or the end of a document.
-/

namespace RaftAdmin.Yaml

/-- The two kinds of quotes. -/
inductive Quote where
  /-- The single quote. -/
  | single
  /-- The double quote. -/
  | double
deriving DecidableEq, Repr

namespace Quote

/-- The character. -/
def char : Quote → Char
  | single => '\''
  | double => '"'

/-- The character of an escape that is complete after one letter. -/
def shortEscape? (c : Char) : Option Char :=
  match c with
  | '0' => some (Char.ofNat 0)
  | 'a' => some (Char.ofNat 7)
  | 'b' => some (Char.ofNat 8)
  | 't' => some '\t'
  | '\t' => some '\t'
  | 'n' => some '\n'
  | 'v' => some (Char.ofNat 11)
  | 'f' => some (Char.ofNat 12)
  | 'r' => some '\r'
  | 'e' => some (Char.ofNat 27)
  | ' ' => some ' '
  | '"' => some '"'
  | '/' => some '/'
  | '\\' => some '\\'
  | 'N' => some (Char.ofNat 0x85)
  | '_' => some (Char.ofNat 0xA0)
  | 'L' => some (Char.ofNat 0x2028)
  | 'P' => some (Char.ofNat 0x2029)
  | _ => none

/-- How many digits follow the letter of an escape. -/
def escapeDigits? (c : Char) : Option Nat :=
  match c with
  | 'x' => some 2
  | 'u' => some 4
  | 'U' => some 8
  | _ => none

/-- Reads an escape after its backslash: the character, and how many characters spell it. -/
def readEscape : List Char → Option (Char × Nat)
  | [] => none
  | c :: cs =>
    match shortEscape? c with
    | some x => some (x, 1)
    | none =>
      match escapeDigits? c with
      | none => none
      | some n =>
        let digits := cs.take n
        match Text.valueFrom? 16 0 digits with
        | none => none
        | some value =>
          if digits.length = n ∧ value.isValidChar then some (Char.ofNat value, n + 1) else none

/-- Reads a word: its text, the cursor after it, and the gap that an escaped line break after it
starts. -/
def readWord (q : Quote) : Nat → Cursor → List Char → Option (List Char × Cursor × Gap)
  | 0, _, _ => none
  | fuel + 1, c, word =>
    match c.rest with
    | [] => some (word.reverse, c, .empty)
    | x :: xs =>
      if isSpace x then some (word.reverse, c, .empty)
      else if q = .single ∧ x = '\'' ∧ xs.head? = some '\'' then
        readWord q fuel (c.skip 2) ('\'' :: word)
      else if x = q.char then some (word.reverse, c, .empty)
      else if q = .double ∧ x = '\\' then
        if (c.skip 1).holds isBreak then some (word.reverse, (c.skip 1).readBreak.2, .escaped)
        else
          match readEscape xs with
          | some (y, n) => readWord q fuel (c.skip (n + 1)) (y :: word)
          | none => none
      else readWord q fuel (c.skip 1) (x :: word)

/-- Reads words and gaps up to the closing quote; `text` precedes them. -/
def readBody (q : Quote) : Nat → Cursor → List Char → Option (List Char × Cursor)
  | 0, _, _ => none
  | fuel + 1, c, text =>
    if c.isDocumentMark || c.isEnd then none
    else
      match readWord q (c.rest.length + 1) c [] with
      | none => none
      | some (word, c, gap) =>
        if c.isAt q.char then some (text ++ word, c.skip 1)
        else
          match Gap.read (-1) (c.rest.length + 1) c gap with
          | none => none
          | some (gap, c) => readBody q fuel c (text ++ word ++ gap.text)

/-- Reads a quoted scalar at its opening quote. -/
def read (q : Quote) (c : Cursor) : Option (List Char × Cursor) :=
  readBody q (c.rest.length + 1) (c.skip 1) []

end Quote

end RaftAdmin.Yaml
