import RaftAdmin.Yaml.Cursor

/-!
# Plain scalars

Scalars without quotes.

## The model

A plain scalar ends where a comment, a key's colon, or in flow collections one of their indicators
comes, at the mark of a document, and, outside of flow collections, at a line that is not indented
further than its surroundings.
-/

namespace RaftAdmin.Yaml.Plain

/-- Whether a colon stands where flow collections do not allow one. -/
def misplacedColon (c : Cursor) : Bool :=
  c.isAt ':' && c.holdsAt 1 fun x => isFlowIndicator x || x = '?'

/-- Whether an indicator ends the scalar. -/
def isOver (inFlow : Bool) (c : Cursor) : Bool :=
  (c.isAt ':' && c.endsWordAt 1) || (inFlow && c.holds isFlowIndicator)

/-- Reads a word. -/
def readWord (inFlow : Bool) : Nat → Cursor → List Char → Option (List Char × Cursor)
  | 0, _, _ => none
  | fuel + 1, c, word =>
    match c.rest with
    | [] => some (word.reverse, c)
    | x :: _ =>
      if isSpace x then some (word.reverse, c)
      else if inFlow && misplacedColon c then none
      else if isOver inFlow c then some (word.reverse, c)
      else readWord inFlow fuel (c.skip 1) (x :: word)

/-- A plain scalar that was read. -/
structure Result where
  /-- Its text. -/
  text : List Char
  /-- Whether line breaks follow it. -/
  endsWithBreak : Bool
  /-- The cursor after it and the gap that follows it. -/
  cursor : Cursor

/-- Reads words and gaps; `text` precedes them, and `gap` lies between. -/
def readBody (inFlow : Bool) (indent : Int) : Nat → Cursor → List Char → Gap → Option Result
  | 0, _, _, _ => none
  | fuel + 1, c, text, gap =>
    if c.isDocumentMark || c.isAt '#' then some ⟨text, gap.spansLines, c⟩
    else
      match readWord inFlow (c.rest.length + 1) c [] with
      | none => none
      | some (word, c) =>
        let text := if word.isEmpty then text else text ++ gap.text ++ word
        let gap := if word.isEmpty then gap else .empty
        if c.holds isSpace then
          match Gap.read indent (c.rest.length + 1) c gap with
          | none => none
          | some (gap, c) =>
            if !inFlow && c.column < indent then some ⟨text, gap.spansLines, c⟩
            else readBody inFlow indent fuel c text gap
        else some ⟨text, gap.spansLines, c⟩

/-- Reads a plain scalar below an indentation. -/
def read (inFlow : Bool) (indent : Int) (c : Cursor) : Option Result :=
  readBody inFlow (indent + 1) (c.rest.length + 1) c [] .empty

end RaftAdmin.Yaml.Plain
