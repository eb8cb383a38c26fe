import RaftAdmin.Text.Split
import RaftAdmin.Yaml.Character

/-!
# Cursors

A place in a document: the text from there on, and where it is.

## The model

`skip` passes over a character that breaks no line, `readBreak` over a line break; only these two
move a cursor. A line break is read as a line feed, except for the two separators of Unicode, which
stand for themselves.
-/

namespace RaftAdmin.Yaml

/-- A place in a document. -/
structure Cursor where
  /-- The text from there on. -/
  rest : List Char
  /-- How many bytes of UTF-8 precede it. -/
  index : Nat
  /-- How many lines precede it. -/
  line : Nat
  /-- How many characters precede it on its line. -/
  column : Nat
deriving Inhabited

namespace Cursor

/-- The start of a document. -/
def start (text : List Char) : Cursor := ⟨text, 0, 0, 0⟩

/-- The character at the cursor. -/
def peek? (c : Cursor) : Option Char := c.rest.head?

/-- Whether the text is at its end. -/
def isEnd (c : Cursor) : Bool := c.rest.isEmpty

/-- Whether a character stands at the cursor. -/
def isAt (c : Cursor) (x : Char) : Bool := c.peek? = some x

/-- Whether a character of a class stands so many characters further on. -/
def holdsAt (c : Cursor) (n : Nat) (p : Char → Bool) : Bool :=
  match c.rest[n]? with
  | some x => p x
  | none => false

/-- Whether a character of a class stands at the cursor. -/
def holds (c : Cursor) (p : Char → Bool) : Bool := c.holdsAt 0 p

/-- Whether a word ends so many characters further on. -/
def endsWordAt (c : Cursor) (n : Nat) : Bool :=
  match c.rest[n]? with
  | some x => isSpace x
  | none => true

/-- Whether a word ends at the cursor. -/
def endsWord (c : Cursor) : Bool := c.endsWordAt 0

/-- Whether a line ends at the cursor. -/
def endsLine (c : Cursor) : Bool := c.isEnd || c.holds isBreak

/-- Passes over some characters that break no line. -/
def skip (c : Cursor) (n : Nat) : Cursor :=
  { c with
    rest := c.rest.drop n
    index := c.index + Text.byteLength (c.rest.take n)
    column := c.column + n }

/-- The characters of a class at the cursor, which break no line. -/
def takeWhile (c : Cursor) (p : Char → Bool) : List Char := c.rest.takeWhile p

/-- Passes over the characters of a class. -/
def skipWhile (c : Cursor) (p : Char → Bool) : Cursor := c.skip (c.takeWhile p).length

/-- The cursor at the start of the next line, after a break of so many characters. -/
def nextLine (c : Cursor) (n : Nat) : Cursor :=
  ⟨c.rest.drop n, c.index + Text.byteLength (c.rest.take n), c.line + 1, 0⟩

/-- Reads a line break, if there is one. -/
def readBreak (c : Cursor) : List Char × Cursor :=
  match c.rest with
  | '\r' :: '\n' :: _ => (['\n'], c.nextLine 2)
  | x :: _ =>
    if isBreak x then
      (if x.toNat = 0x2028 || x.toNat = 0x2029 then [x] else ['\n'], c.nextLine 1)
    else ([], c)
  | [] => ([], c)

/-- Passes over the rest of a line but for its break. -/
def skipComment (c : Cursor) : Cursor :=
  if c.isAt '#' then c.skipWhile fun x => !isBreak x else c

/-- Whether a mark of three characters stands at the cursor as a word. -/
def isMark (c : Cursor) (x : Char) : Bool :=
  c.column = 0 && c.rest.take 3 = [x, x, x] && c.endsWordAt 3

/-- Whether the start or the end of a document is marked at the cursor. -/
def isDocumentMark (c : Cursor) : Bool := c.isMark '-' || c.isMark '.'

/-- Passes over blanks and a comment to the next line; nothing else may stand before it. -/
def finishLine (c : Cursor) : Option Cursor :=
  let c := (c.skipWhile isBlank).skipComment
  if c.endsLine then some c.readBreak.2 else none

end Cursor

/-! ### Gaps between words -/

/-- What separates two words of a scalar: blanks on a line, or line breaks. -/
structure Gap where
  /-- The blanks, if no line break follows. -/
  blanks : List Char
  /-- The line breaks in order. -/
  breaks : List (List Char)

namespace Gap

/-- No gap. -/
def empty : Gap := ⟨[], []⟩

/-- The gap after a line break that was escaped. -/
def escaped : Gap := ⟨[], [[]]⟩

/-- Whether the gap spans lines. -/
def spansLines (g : Gap) : Bool := !g.breaks.isEmpty

/-- What the gap adds to the text: a single line feed becomes a blank, and the first of several is
dropped. -/
def text (g : Gap) : List Char :=
  match g.breaks with
  | [] => g.blanks
  | ['\n'] :: [] => [' ']
  | ['\n'] :: more => more.flatten
  | breaks => breaks.flatten

/-- Reads a gap; a tab before column `limit` of a further line is an error. -/
def read (limit : Int) : Nat → Cursor → Gap → Option (Gap × Cursor)
  | 0, _, _ => none
  | fuel + 1, c, g =>
    if c.holds isBlank then
      if g.spansLines && c.column < limit && c.isAt '\t' then none
      else if g.spansLines then read limit fuel (c.skip 1) g
      else read limit fuel (c.skip 1) { g with blanks := g.blanks ++ c.rest.take 1 }
    else if c.holds isBreak then
      let (b, c) := c.readBreak
      read limit fuel c ⟨[], g.breaks ++ [b]⟩
    else some (g, c)

end Gap

end RaftAdmin.Yaml
