import RaftAdmin.Yaml.Property
import RaftAdmin.Yaml.Scalar.Block
import RaftAdmin.Yaml.Scalar.Plain
import RaftAdmin.Yaml.Scalar.Quoted

/-!
# Reading tokens

Takes a document apart into tokens and makes its indentation explicit.

## The model

Whether a node is the key of a mapping shows only at the colon after it. So the lexer remembers, on
every level of flow collections, where a key may have started and how many tokens there were; at the
colon the missing tokens are put in at that place. A key without an indicator stays on one line and
is at most 1024 bytes of UTF-8 long. Where a key has to stand and no colon comes, the document is
malformed.
-/

namespace RaftAdmin.Yaml

/-- A place where a key may have started. -/
structure PotentialKey where
  /-- Whether nothing but a key may stand there. -/
  required : Bool
  /-- How many tokens precede it. -/
  number : Nat
  /-- How many bytes of UTF-8 precede it. -/
  index : Nat
  /-- How many lines precede it. -/
  line : Nat
  /-- How many characters precede it on its line. -/
  column : Nat

/-- What the lexer knows. -/
structure Lexer where
  /-- The place in the document. -/
  cursor : Cursor
  /-- The tokens so far, the latest first. -/
  tokens : List Token
  /-- How far the current block collection is indented, or `-1`. -/
  indent : Int
  /-- How far the block collections around it are indented. -/
  outerIndents : List Int
  /-- Whether a key may start here. -/
  keyAllowed : Bool
  /-- The place where a key may have started on the current level. -/
  key? : Option PotentialKey
  /-- These places on the levels around it, one for each flow collection. -/
  outerKeys : List (Option PotentialKey)

namespace Lexer

/-- The lexer at the start of a text. -/
def start (text : List Char) : Lexer := ⟨.start text, [], -1, [], true, none, []⟩

/-- Whether the lexer is inside a flow collection. -/
def inFlow (l : Lexer) : Bool := !l.outerKeys.isEmpty

/-- Adds a token. -/
def emit (l : Lexer) (t : Token) : Lexer := { l with tokens := t :: l.tokens }

/-- Puts a token in after the first `number` ones. -/
def emitAt (l : Lexer) (number : Nat) (t : Token) : Lexer :=
  { l with tokens := l.tokens.insertIdx (l.tokens.length - number) t }

/-! ### Indentation -/

/-- Starts a block collection if the column is beyond the indentation; its first token comes after
the first `number` ones. -/
def indentTo (l : Lexer) (column number : Nat) (t : Token) : Lexer :=
  if l.inFlow then l
  else if l.indent < column then
    { l.emitAt number t with indent := column, outerIndents := l.indent :: l.outerIndents }
  else l

/-- Ends the block collections that are indented beyond a column. -/
def unindentThrough (column : Int) : List Int → Lexer → Lexer
  | outer, l =>
    if l.indent > column then
      match outer with
      | [] => { l with indent := -1, outerIndents := [] }
      | indent :: outer =>
        unindentThrough column outer
          { l.emit .blockEnd with indent := indent, outerIndents := outer }
    else l

/-- Ends the block collections that are indented beyond a column. -/
def unindentTo (l : Lexer) (column : Int) : Lexer :=
  if l.inFlow then l else unindentThrough column l.outerIndents l

/-! ### Keys -/

/-- Whether a key that started at a place cannot end here any more. -/
def isStale (c : Cursor) (k : PotentialKey) : Bool := k.line < c.line || k.index + 1024 < c.index

/-- Forgets a place where a key may have started. -/
def forget (k? : Option PotentialKey) : Option (Option PotentialKey) :=
  match k? with
  | some k => if k.required then none else some none
  | none => some none

/-- Forgets a place where a key may have started if it cannot end here any more. -/
def forgetStale (c : Cursor) (k? : Option PotentialKey) : Option (Option PotentialKey) :=
  match k? with
  | some k => if isStale c k then forget k? else some k?
  | none => some none

/-- Forgets the places from which a key cannot end here any more. -/
def dropStale (l : Lexer) : Option Lexer := do
  let outerKeys ← l.outerKeys.mapM (forgetStale l.cursor)
  let key? ← forgetStale l.cursor l.key?
  return { l with key? := key?, outerKeys := outerKeys }

/-- Forgets the place on the current level. -/
def dropKey (l : Lexer) : Option Lexer := do return { l with key? := ← forget l.key? }

/-- Remembers that a key may start here. -/
def saveKey (l : Lexer) : Option Lexer :=
  if l.keyAllowed then do
    let l ← l.dropKey
    let c := l.cursor
    let required := !l.inFlow && l.indent = c.column
    return { l with key? := some ⟨required, l.tokens.length, c.index, c.line, c.column⟩ }
  else some l

/-! ### Tokens -/

/-- Passes over some characters and adds a token. -/
def take (l : Lexer) (n : Nat) (t : Token) : Lexer :=
  { l.emit t with cursor := l.cursor.skip n }

/-- Adds a token that was read up to a cursor. -/
def accept (l : Lexer) (read : Token × Cursor) : Lexer :=
  { l.emit read.1 with cursor := read.2, keyAllowed := false }

/-- Ends all block collections at a mark or a directive. -/
def interrupt (l : Lexer) : Option Lexer := do
  let l ← (l.unindentTo (-1)).dropKey
  return { l with keyAllowed := false }

/-- Opens a flow collection. -/
def openFlow (l : Lexer) (t : Token) : Option Lexer := do
  let l ← l.saveKey
  return { l.take 1 t with key? := none, outerKeys := l.key? :: l.outerKeys, keyAllowed := true }

/-- Closes a flow collection. -/
def closeFlow (l : Lexer) (t : Token) : Option Lexer := do
  let l ← l.dropKey
  let l := { l.take 1 t with keyAllowed := false }
  match l.outerKeys with
  | key? :: outer => return { l with key? := key?, outerKeys := outer }
  | [] => return l

/-- A comma. -/
def comma (l : Lexer) : Option Lexer := do
  let l ← l.dropKey
  return { l.take 1 .comma with keyAllowed := true }

/-- The dash before an item. -/
def item (l : Lexer) : Option Lexer :=
  if !l.inFlow && !l.keyAllowed then none
  else do
    let l ← (l.indentTo l.cursor.column l.tokens.length .blockSequence).dropKey
    return { l.take 1 .item with keyAllowed := true }

/-- The indicator of a key. -/
def key (l : Lexer) : Option Lexer :=
  if !l.inFlow && !l.keyAllowed then none
  else do
    let l ← (l.indentTo l.cursor.column l.tokens.length .blockMapping).dropKey
    return { l.take 1 .key with keyAllowed := !l.inFlow }

/-- The colon before a value. -/
def value (l : Lexer) : Option Lexer :=
  match l.key? with
  | some k =>
    let l := (l.emitAt k.number .key).indentTo k.column k.number .blockMapping
    some { l.take 1 .value with key? := none, keyAllowed := false }
  | none =>
    if !l.inFlow && !l.keyAllowed then none
    else
      let l := l.indentTo l.cursor.column l.tokens.length .blockMapping
      some { l.take 1 .value with keyAllowed := !l.inFlow }

/-- A node property or a scalar that may be a key. -/
def node (l : Lexer) (read : Lexer → Option (Token × Cursor)) : Option Lexer := do
  let l ← l.saveKey
  return l.accept (← read l)

/-- A block scalar. -/
def blockScalar (l : Lexer) (isFolded : Bool) : Option Lexer := do
  let l ← l.dropKey
  let (text, c) ← Block.read isFolded l.indent l.cursor
  return { l.accept (.scalar false (String.ofList text), c) with keyAllowed := true }

/-- A quoted scalar. -/
def quotedScalar (l : Lexer) (q : Quote) : Option Lexer :=
  l.node fun l => (q.read l.cursor).map fun (text, c) => (.scalar false (String.ofList text), c)

/-- A plain scalar. -/
def plainScalar (l : Lexer) : Option Lexer := do
  let l ← l.saveKey
  let r ← Plain.read l.inFlow l.indent l.cursor
  return { l.accept (.scalar true (String.ofList r.text), r.cursor) with
    keyAllowed := r.endsWithBreak }

/-- Whether a plain scalar may start here. -/
def startsPlain (l : Lexer) : Bool :=
  let c := l.cursor
  !(c.endsWord || c.holds isIndicator)
    || (c.isAt '-' && !(c.holdsAt 1 isBlank))
    || (!l.inFlow && (c.isAt '?' || c.isAt ':') && !c.endsWordAt 1)

/-- Reads the token that starts at the cursor. -/
def readToken (l : Lexer) : Option Lexer :=
  let c := l.cursor
  let starts (x : Char) : Bool := c.isAt x && c.endsWordAt 1
  let startsInFlow (x : Char) : Bool := c.isAt x && (l.inFlow || c.endsWordAt 1)
  if c.column = 0 && c.isAt '%' then do return (← l.interrupt).accept (← readDirective (c.skip 1))
  else if c.isMark '-' then do return (← l.interrupt).take 3 .documentStart
  else if c.isMark '.' then do return (← l.interrupt).take 3 .documentEnd
  else if c.isAt '[' then l.openFlow .openSequence
  else if c.isAt '\x7b' then l.openFlow .openMapping
  else if c.isAt ']' then l.closeFlow .closeSequence
  else if c.isAt '\x7d' then l.closeFlow .closeMapping
  else if c.isAt ',' then l.comma
  else if starts '-' then l.item
  else if startsInFlow '?' then l.key
  else if startsInFlow ':' then l.value
  else if c.isAt '*' then
    l.node fun l => (readAnchor (l.cursor.skip 1)).map fun (name, c) => (.alias name, c)
  else if c.isAt '&' then
    l.node fun l => (readAnchor (l.cursor.skip 1)).map fun (name, c) => (.anchor name, c)
  else if c.isAt '!' then
    l.node fun l => (readTag l.inFlow l.cursor).map fun (tag, c) => (.tag tag, c)
  else if c.isAt '|' && !l.inFlow then l.blockScalar false
  else if c.isAt '>' && !l.inFlow then l.blockScalar true
  else if c.isAt '\'' then l.quotedScalar .single
  else if c.isAt '"' then l.quotedScalar .double
  else if l.startsPlain then l.plainScalar
  else none

/-- Passes over blanks, comments and line breaks to the next token. A tab may not indent it. -/
def skipToToken : Nat → Lexer → Lexer
  | 0, l => l
  | fuel + 1, l =>
    let c := l.cursor
    let c := if c.column = 0 && c.isAt byteOrderMark then c.skip 1 else c
    let c := c.skipWhile fun x => x = ' ' || ((l.inFlow || !l.keyAllowed) && x = '\t')
    let c := c.skipComment
    if c.holds isBreak then
      skipToToken fuel { l with cursor := c.readBreak.2, keyAllowed := l.keyAllowed || !l.inFlow }
    else { l with cursor := c }

/-- Ends all collections at the end of the text. -/
def finish (l : Lexer) : Option (List Token) := do
  let l ← (l.unindentTo (-1)).dropKey
  return l.tokens.reverse

/-- Reads all tokens. -/
def readAll : Nat → Lexer → Option (List Token)
  | 0, _ => none
  | fuel + 1, l =>
    match (skipToToken (l.cursor.rest.length + 1) l).dropStale with
    | none => none
    | some l =>
      let l := l.unindentTo l.cursor.column
      if l.cursor.isEnd then l.finish
      else
        match l.readToken with
        | none => none
        | some l => readAll fuel l

end Lexer

/-- The tokens of a text; none if it is malformed. -/
def tokens? (text : String) : Option (List Token) :=
  let cs := text.toList
  if cs.all isPrintable then Lexer.readAll (cs.length + 1) (.start cs) else none

end RaftAdmin.Yaml
