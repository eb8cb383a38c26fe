import RaftAdmin.Text.Numeral
import RaftAdmin.Yaml.Cursor

/-!
# Block scalars

Scalars that stand on lines of their own below an indicator.

## The model

The header says whether line breaks are kept or folded, what becomes of the last ones, and how far
the lines are indented. Without the latter the first line that is not blank tells. Folding makes a
blank of a single line break between two lines that do not start with a blank themselves.
-/

namespace RaftAdmin.Yaml.Block

/-- What becomes of the line breaks at the end. -/
inductive Chomping where
  /-- None is kept. -/
  | strip
  /-- One is kept. -/
  | clip
  /-- All are kept. -/
  | keep
deriving DecidableEq, Repr

/-- What the header says. -/
structure Header where
  /-- What becomes of the line breaks at the end. -/
  chomping : Chomping
  /-- How far the lines are indented beyond their surroundings, or zero. -/
  increment : Nat

/-- The chomping that a character asks for. -/
def chomping? (c : Cursor) : Option Chomping :=
  if c.isAt '+' then some .keep else if c.isAt '-' then some .strip else none

/-- Reads a digit of the header, if there is one; it may not be zero. -/
def readIncrement (c : Cursor) : Option (Nat × Cursor) :=
  match c.peek? with
  | some x =>
    if Text.isDigit x then if x = '0' then none else some (x.toNat - '0'.toNat, c.skip 1)
    else some (0, c)
  | none => some (0, c)

/-- Reads the header after its indicator. Chomping and increment may come in either order. -/
def readHeader (c : Cursor) : Option (Header × Cursor) :=
  match chomping? c with
  | some chomping =>
    (readIncrement (c.skip 1)).map fun (increment, c) => (⟨chomping, increment⟩, c)
  | none =>
    match readIncrement c with
    | none => none
    | some (0, c) => some (⟨.clip, 0⟩, c)
    | some (increment, c) =>
      match chomping? c with
      | some chomping => some (⟨chomping, increment⟩, c.skip 1)
      | none => some (⟨.clip, increment⟩, c)

/-- Reads indentation and blank lines; an indentation of zero is not known yet. The results are the
line breaks, the widest indentation of a line, and the cursor. -/
def readBlankLines (indent : Nat) :
    Nat → Cursor → List Char → Nat → Option (List Char × Nat × Cursor)
  | 0, _, _, _ => none
  | fuel + 1, c, breaks, widest =>
    let indentation := c.takeWhile (· = ' ')
    let n :=
      if indent = 0 then indentation.length else min indentation.length (indent - c.column)
    let c := c.skip n
    let widest := max widest c.column
    if (indent = 0 || c.column < indent) && c.isAt '\t' then none
    else if c.holds isBreak then
      let (b, c) := c.readBreak
      readBlankLines indent fuel c (breaks ++ b) widest
    else some (breaks, widest, c)

/-- The indentation of the lines, if it was not known: the widest that was met, but more than that
of the surroundings. -/
def settleIndent (indent : Nat) (parent : Int) (widest : Nat) : Nat :=
  if indent = 0 then max (max widest (parent + 1).toNat) 1 else indent

/-- What was read of the lines. -/
structure Body where
  /-- The text without the last line breaks. -/
  text : List Char
  /-- The break of the last line. -/
  lastBreak : List Char
  /-- The breaks of the blank lines after it. -/
  blankLines : List Char
  /-- Whether the last line starts with a blank. -/
  startsBlank : Bool

/-- What separates the lines before from a line that may start with a blank. -/
def Body.separator (isFolded : Bool) (b : Body) (startsBlank : Bool) : List Char :=
  if isFolded && b.lastBreak.head? = some '\n' && !b.startsBlank && !startsBlank then
    if b.blankLines.isEmpty then [' '] else b.blankLines
  else b.lastBreak ++ b.blankLines

/-- Reads the lines. -/
def readLines (isFolded : Bool) (indent : Nat) : Nat → Cursor → Body → Option (Body × Cursor)
  | 0, _, _ => none
  | fuel + 1, c, b =>
    if c.column = indent && !c.isEnd then
      let startsBlank := c.holds isBlank
      let line := c.takeWhile fun x => !isBreak x
      let text := b.text ++ b.separator isFolded startsBlank ++ line
      let (lastBreak, c) := (c.skip line.length).readBreak
      match readBlankLines indent (c.rest.length + 1) c [] 0 with
      | none => none
      | some (blankLines, _, c) =>
        readLines isFolded indent fuel c ⟨text, lastBreak, blankLines, startsBlank⟩
    else some (b, c)

/-- The text with the line breaks that are kept at its end. -/
def Body.chomp (chomping : Chomping) (b : Body) : List Char :=
  match chomping with
  | .strip => b.text
  | .clip => b.text ++ b.lastBreak
  | .keep => b.text ++ b.lastBreak ++ b.blankLines

/-- Reads a block scalar at its indicator, below an indentation. -/
def read (isFolded : Bool) (parent : Int) (c : Cursor) : Option (List Char × Cursor) :=
  match readHeader (c.skip 1) with
  | none => none
  | some (header, c) =>
    match c.finishLine with
    | none => none
    | some c =>
      let indent := if header.increment = 0 then 0 else header.increment + parent.toNat
      match readBlankLines indent (c.rest.length + 1) c [] 0 with
      | none => none
      | some (blankLines, widest, c) =>
        let indent := settleIndent indent parent widest
        (readLines isFolded indent (c.rest.length + 1) c ⟨[], [], blankLines, false⟩).map
          fun (body, c) => (body.chomp header.chomping, c)

end RaftAdmin.Yaml.Block
