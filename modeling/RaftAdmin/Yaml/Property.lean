import RaftAdmin.Yaml.Cursor
import RaftAdmin.Yaml.Token

/-!
# Properties of nodes

Reads anchors, references to them, tags and directives.
-/

namespace RaftAdmin.Yaml

/-! ### Anchors -/

/-- Whether a character may follow an anchor. -/
def mayFollowAnchor (c : Char) : Bool := isSpace c || "?:,]\x7d%@\x60".toList.contains c

/-- Reads the name of an anchor after its indicator. -/
def readAnchor (c : Cursor) : Option (String × Cursor) :=
  let name := c.takeWhile isNameChar
  let rest := c.skip name.length
  if name.isEmpty || !(rest.isEnd || rest.holds mayFollowAnchor) then none
  else some (String.ofList name, rest)

/-! ### Tags -/

/-- Reads the octets of a tag; between angle brackets more characters are allowed. -/
def readTagOctets (verbatim : Bool) : Nat → Cursor → Octets → Option (Octets × Cursor)
  | 0, _, _ => none
  | fuel + 1, c, read =>
    match c.rest with
    | [] => some (read.reverse, c)
    | x :: _ =>
      if x = '%' then
        match readEncoded c.rest with
        | some octets =>
          readTagOctets verbatim fuel (c.skip (3 * octets.length)) (octets.reverse ++ read)
        | none => none
      else if isTagChar x || (verbatim && (x = ',' || x = '[' || x = ']')) then
        readTagOctets verbatim fuel (c.skip 1) (x.val.toUInt8 :: read)
      else some (read.reverse, c)

/-- Reads a tag after a handle of which all but the mark belongs to it; something must be there. -/
def readTagText (verbatim : Bool) (handle : List Char) (c : Cursor) : Option (Tag × Cursor) :=
  match readTagOctets verbatim (c.rest.length + 1) c [] with
  | none => none
  | some (octets, rest) =>
    if handle.isEmpty && octets.isEmpty then none
    else some (.ofOctets (.ofString (String.ofList (handle.drop 1)) ++ octets), rest)

/-- Reads an exclamation mark, a name, and an exclamation mark if one follows. -/
def readHandle (c : Cursor) : Option (List Char × Cursor) :=
  if c.isAt '!' then
    let name := (c.skip 1).takeWhile isNameChar
    let rest := c.skip (1 + name.length)
    if rest.isAt '!' then some ('!' :: name ++ ['!'], rest.skip 1) else some ('!' :: name, rest)
  else none

/-- Whether a handle that was read is one with a second exclamation mark. -/
def isClosedHandle (handle : List Char) : Bool :=
  handle.length > 1 && handle.getLast? = some '!'

/-- Reads a tag between angle brackets. -/
def readVerbatimTag (c : Cursor) : Option (WrittenTag × Cursor) :=
  match readTagText true [] (c.skip 2) with
  | none => none
  | some (tag, rest) => if rest.isAt '>' then some (⟨"", tag⟩, rest.skip 1) else none

/-- Reads a tag that may have a handle. -/
def readShortTag (c : Cursor) : Option (WrittenTag × Cursor) :=
  match readHandle c with
  | none => none
  | some (handle, rest) =>
    if isClosedHandle handle then
      (readTagText false [] rest).map fun (tag, rest) => (⟨String.ofList handle, tag⟩, rest)
    else
      (readTagText false handle rest).map fun (tag, rest) =>
        (if tag.isEmpty then ⟨"", .bang⟩ else ⟨"!", tag⟩, rest)

/-- Reads a tag; a blank, a line break or, in flow collections, a comma must follow it. -/
def readTag (inFlow : Bool) (c : Cursor) : Option (WrittenTag × Cursor) :=
  match if (c.skip 1).isAt '<' then readVerbatimTag c else readShortTag c with
  | none => none
  | some (tag, rest) =>
    if (inFlow && rest.isAt ',') || rest.endsWord then some (tag, rest) else none

/-! ### Directives -/

/-- Reads a number of at most nine digits. -/
def readVersionNumber (c : Cursor) : Option (Nat × Cursor) :=
  let digits := c.takeWhile Text.isDigit
  if digits.length > 9 then none
  else (Text.value? 10 digits).map fun n => (n, c.skip digits.length)

/-- Reads the value of a version directive. -/
def readVersion (c : Cursor) : Option (Token × Cursor) :=
  match readVersionNumber (c.skipWhile isBlank) with
  | none => none
  | some (major, c) =>
    if c.isAt '.' then
      (readVersionNumber (c.skip 1)).map fun (minor, c) => (.version major minor, c)
    else none

/-- Reads the value of a directive on tags. -/
def readHandleMeaning (c : Cursor) : Option (Token × Cursor) :=
  match readHandle (c.skipWhile isBlank) with
  | none => none
  | some (handle, c) =>
    if handle.length > 1 && !isClosedHandle handle then none
    else if !c.holds isBlank then none
    else
      match readTagText true [] (c.skipWhile isBlank) with
      | none => none
      | some (meaning, c) =>
        if c.endsWord then some (.handle (String.ofList handle) meaning, c) else none

/-- Reads a directive after its percent sign, with the rest of its line. -/
def readDirective (c : Cursor) : Option (Token × Cursor) :=
  let name := String.ofList (c.takeWhile isNameChar)
  let rest := c.skipWhile isNameChar
  if !rest.endsWord then none
  else
    let value? :=
      if name = "YAML" then readVersion rest
      else if name = "TAG" then readHandleMeaning rest
      else none
    match value? with
    | none => none
    | some (token, c) => c.finishLine.map fun c => (token, c)

end RaftAdmin.Yaml
