import RaftAdmin.Json.Value

/-!
# Reading JSON

The strict grammar of JSON: no byte order mark, no comments, no trailing commas, no control
characters in literals, and blanks are the space, the tab and the two line end characters only.

## The model

Every reader takes the text from where it stands and gives what it read with the rest of the text.
Arrays and objects hold values, so the readers of values recurse; each level of nesting takes at
least one character, and the length of the text is fuel enough.
-/

namespace RaftAdmin.Json

/-- Whether a character may stand between tokens. -/
def isSpace (c : Char) : Bool := c = ' ' || c = '\t' || c = '\n' || c = '\r'

/-- The text from its next token on. -/
def skipSpace (cs : List Char) : List Char := cs.dropWhile isSpace

/-! ### Literals -/

/-- One piece of a literal. -/
inductive Piece where
  /-- A character. -/
  | char (c : Char)
  /-- A UTF-16 unit that was escaped. -/
  | unit (n : Nat)

/-- The character of a one-character escape. -/
def shortEscape? (c : Char) : Option Char :=
  if c = '"' then some '"'
  else if c = '\\' then some '\\'
  else if c = '/' then some '/'
  else if c = 'b' then some (Char.ofNat 8)
  else if c = 'f' then some (Char.ofNat 12)
  else if c = 'n' then some '\n'
  else if c = 'r' then some '\r'
  else if c = 't' then some '\t'
  else none

/-- The pieces of a literal after its opening quote, in reverse before `pieces`, and the rest of the
text after its closing quote. -/
def readPieces : List Char → List Piece → Option (List Piece × List Char)
  | [], _ => none
  | '"' :: cs, pieces => some (pieces, cs)
  | '\\' :: 'u' :: a :: b :: c :: d :: cs, pieces =>
    match Text.valueFrom? 16 0 [a, b, c, d] with
    | some n => readPieces cs (.unit n :: pieces)
    | none => none
  | '\\' :: e :: cs, pieces =>
    match shortEscape? e with
    | some c => readPieces cs (.char c :: pieces)
    | none => none
  | c :: cs, pieces =>
    if c = '\\' ∨ c.toNat < 0x20 then none else readPieces cs (.char c :: pieces)

/-- Whether a UTF-16 unit is the first half of a pair. -/
def isHighHalf (n : Nat) : Bool := 0xD800 ≤ n && n < 0xDC00

/-- Whether a UTF-16 unit is the second half of a pair. -/
def isLowHalf (n : Nat) : Bool := 0xDC00 ≤ n && n < 0xE000

/-- The characters that pieces denote: two halves make a character, one half alone makes none. -/
def joinPieces : List Piece → Option (List Char)
  | [] => some []
  | .char c :: ps => (joinPieces ps).map (c :: ·)
  | .unit n :: .unit m :: ps =>
    if isHighHalf n then
      if isLowHalf m then
        (joinPieces ps).map (Char.ofNat (0x10000 + (n - 0xD800) * 0x400 + (m - 0xDC00)) :: ·)
      else none
    else if isLowHalf n then none
    else (joinPieces (.unit m :: ps)).map (Char.ofNat n :: ·)
  | .unit n :: ps =>
    if isHighHalf n || isLowHalf n then none else (joinPieces ps).map (Char.ofNat n :: ·)

/-- Reads a literal after its opening quote. -/
def readLiteral (cs : List Char) : Option (Literal × List Char) :=
  match readPieces cs [] with
  | some (pieces, rest) => some ((joinPieces pieces.reverse).map String.ofList, rest)
  | none => none

/-! ### Numbers -/

/-- The fraction of a number with its point, and the rest. A point needs a digit after it. -/
def readFraction : List Char → Option (List Char × List Char)
  | '.' :: cs =>
    let ds := cs.takeWhile Text.isDigit
    if ds.isEmpty then none else some ('.' :: ds, cs.dropWhile Text.isDigit)
  | cs => some ([], cs)

/-- The sign of an exponent. -/
def exponentSign : List Char → List Char
  | '+' :: _ => ['+']
  | '-' :: _ => ['-']
  | _ => []

/-- The exponent of a number with its mark, and the rest. A mark needs a digit after it. -/
def readExponent : List Char → Option (List Char × List Char)
  | c :: cs =>
    if c = 'e' ∨ c = 'E' then
      let sign := exponentSign cs
      let more := cs.drop sign.length
      let ds := more.takeWhile Text.isDigit
      if ds.isEmpty then none else some (c :: sign ++ ds, more.dropWhile Text.isDigit)
    else some ([], c :: cs)
  | [] => some ([], [])

/-- Reads a number after its sign. Its integer part has no needless zero in front. -/
def readUnsigned (negative : Bool) (cs : List Char) : Option (Number × List Char) :=
  let ds := cs.takeWhile Text.isDigit
  match Text.value? 10 ds with
  | none => none
  | some whole =>
    if ds.head? = some '0' ∧ ds.length ≠ 1 then none
    else
      match readFraction (cs.dropWhile Text.isDigit) with
      | none => none
      | some (fraction, rest) =>
        match readExponent rest with
        | none => none
        | some (exponent, rest) => some (⟨negative, whole, fraction ++ exponent⟩, rest)

/-- Reads a number. -/
def readNumber : List Char → Option (Number × List Char)
  | '-' :: cs => readUnsigned true cs
  | cs => readUnsigned false cs

/-! ### Values -/

/-- A value that is one word. -/
def word? (cs : List Char) : Option (Value × List Char) :=
  match cs with
  | 'n' :: 'u' :: 'l' :: 'l' :: rest => some (.null, rest)
  | 't' :: 'r' :: 'u' :: 'e' :: rest => some (.bool true, rest)
  | 'f' :: 'a' :: 'l' :: 's' :: 'e' :: rest => some (.bool false, rest)
  | _ => none

mutual

/-- Reads a value that starts at the next token. -/
def readValue : Nat → List Char → Option (Value × List Char)
  | 0, _ => none
  | fuel + 1, cs =>
    match skipSpace cs with
    | '"' :: rest => (readLiteral rest).map fun (t, rest) => (.text t, rest)
    | '[' :: rest =>
      match skipSpace rest with
      | ']' :: rest => some (.array [], rest)
      | rest => readItems fuel rest []
    | '\x7b' :: rest =>
      match skipSpace rest with
      | '\x7d' :: rest => some (.object [], rest)
      | rest => readMembers fuel rest []
    | rest =>
      match word? rest with
      | some found => some found
      | none => (readNumber rest).map fun (n, rest) => (.number n, rest)

/-- Reads the items of an array after those in `items`, which are in reverse. -/
def readItems : Nat → List Char → List Value → Option (Value × List Char)
  | 0, _, _ => none
  | fuel + 1, cs, items =>
    match readValue fuel cs with
    | none => none
    | some (v, rest) =>
      match skipSpace rest with
      | ',' :: rest => readItems fuel rest (v :: items)
      | ']' :: rest => some (.array (v :: items).reverse, rest)
      | _ => none

/-- Reads the members of an object after those in `members`, which are in reverse. -/
def readMembers : Nat → List Char → List (Literal × Value) → Option (Value × List Char)
  | 0, _, _ => none
  | fuel + 1, cs, members =>
    match skipSpace cs with
    | '"' :: rest =>
      match readLiteral rest with
      | none => none
      | some (name, rest) =>
        match skipSpace rest with
        | ':' :: rest =>
          match readValue fuel rest with
          | none => none
          | some (v, rest) =>
            match skipSpace rest with
            | ',' :: rest => readMembers fuel rest ((name, v) :: members)
            | '\x7d' :: rest => some (.object ((name, v) :: members).reverse, rest)
            | _ => none
        | _ => none
    | _ => none

end

/-- The value a text spells; nothing but blanks may follow it. -/
def readChars (cs : List Char) : Option Value :=
  match readValue (cs.length + 1) cs with
  | some (v, rest) => if (skipSpace rest).isEmpty then some v else none
  | none => none

/-- The value a text spells. -/
def read (s : String) : Option Value := readChars s.toList

end RaftAdmin.Json
