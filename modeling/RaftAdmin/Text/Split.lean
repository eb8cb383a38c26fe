import RaftAdmin.Text.Blank

/-!
# Cutting a text

Lists of peers, priorities, properties and lines are all texts with separators. This module cuts a
text at every separator, at the first or at the last one, and into lines.

## The model

Cutting never drops a part: `n` separators give `n + 1` parts, and blank parts are the caller's
business. A line ends at a line feed, and a carriage return just before it belongs to the line end.
The three cuts work on the bytes of a text as well as on its characters.
-/

namespace RaftAdmin.Text

/-- The parts of a list between the elements that satisfy `sep`. -/
def splitBy {α : Type} (sep : α → Bool) : List α → List (List α)
  | [] => [[]]
  | c :: cs =>
    if sep c then [] :: splitBy sep cs
    else
      match splitBy sep cs with
      | [] => [[c]]
      | part :: parts => (c :: part) :: parts

/-- The parts of a text between the occurrences of one character. -/
def splitAt (sep : Char) (s : String) : List String :=
  (splitBy (· == sep) s.toList).map String.ofList

/-- What comes before and after the first element that satisfies `sep`. -/
def cutFirst {α : Type} (sep : α → Bool) : List α → Option (List α × List α)
  | [] => none
  | c :: cs =>
    if sep c then some ([], cs)
    else (cutFirst sep cs).map fun (before, after) => (c :: before, after)

/-- What comes before and after the last element that satisfies `sep`. -/
def cutLast {α : Type} (sep : α → Bool) : List α → Option (List α × List α)
  | [] => none
  | c :: cs =>
    match cutLast sep cs with
    | some (before, after) => some (c :: before, after)
    | none => if sep c then some ([], cs) else none

/-- What follows `front` in the text, if the text starts with it. -/
def dropFront? : List Char → List Char → Option (List Char)
  | [], cs => some cs
  | _ :: _, [] => none
  | f :: fs, c :: cs => if f == c then dropFront? fs cs else none

/-- What precedes `back` in the text, if the text ends with it. -/
def dropBack? (back cs : List Char) : Option (List Char) :=
  (dropFront? back.reverse cs.reverse).map List.reverse

/-- Whether the text starts with `front`. -/
def startsWith (front cs : List Char) : Bool := (dropFront? front cs).isSome

/-- Whether the text ends with `back`. -/
def endsWith (back cs : List Char) : Bool := (dropBack? back cs).isSome

/-- The parts of a text between the occurrences of a nonempty delimiter `d :: ds`, the leftmost
occurrence first; `part` holds the current part in reverse, and `skip` counts what is left of an
occurrence that has been met. -/
def splitOnText (d : Char) (ds : List Char) : List Char → Nat → List Char → List (List Char)
  | [], _, part => [part.reverse]
  | _ :: cs, skip + 1, part => splitOnText d ds cs skip part
  | c :: cs, 0, part =>
    if startsWith (d :: ds) (c :: cs) then part.reverse :: splitOnText d ds cs ds.length []
    else splitOnText d ds cs 0 (c :: part)

/-- The parts of a text between the occurrences of a delimiter. The empty delimiter occurs between
all characters and at both ends. -/
def splitOn (delimiter s : String) : List String :=
  match delimiter.toList with
  | [] => "" :: (s.toList.map fun c => String.ofList [c]) ++ [""]
  | d :: ds => (splitOnText d ds s.toList 0 []).map String.ofList

/-- The line without the carriage return that ends it. -/
def dropReturn (line : List Char) : List Char :=
  match dropBack? ['\r'] line with
  | some body => body
  | none => line

/-- The lines of a text. A text that ends with a line feed has no further line after it, and only
a line that a line feed ends loses a carriage return. -/
def lineParts : List (List Char) → List (List Char)
  | [] => []
  | [last] => if last.isEmpty then [] else [last]
  | line :: rest => dropReturn line :: lineParts rest

/-- The lines of a text. -/
def lines (s : String) : List String :=
  (lineParts (splitBy (· == '\n') s.toList)).map String.ofList

/-- The number of bytes a text takes in UTF-8. -/
def byteLength : List Char → Nat
  | [] => 0
  | c :: cs => c.utf8Size + byteLength cs

/-- The parts between the occurrences of one character, trimmed, without those that are blank. -/
def nonblankParts (sep : Char) (s : String) : List String :=
  (((splitBy (· == sep) s.toList).map trimChars).filter (!·.isEmpty)).map String.ofList

end RaftAdmin.Text
