import RaftAdmin.Text.Blank
import RaftAdmin.Text.Numeral
import RaftAdmin.Text.Split

/-!
# Group ids

A group id is a UUID: 128 bits, kept as 32 hexadecimal digits.

## The model

An id is written in lower case with hyphens after 8, 12, 16 and 20 digits. It is read from four
forms: 32 digits without hyphens, the hyphenated form, the hyphenated form in braces, and the
hyphenated form after `urn:uuid:`; this mark and digits may have either case. What cannot be read is diagnosed:
the first foreign character, else the number of groups, else the first group of a wrong length.
Lengths and offsets in diagnoses count UTF-8 bytes.
-/

namespace RaftAdmin

/-- A group id: 32 hexadecimal digits. -/
structure GroupId where
  /-- The digits, most significant first. -/
  digits : List (Fin 16)
  /-- There are 32 of them. -/
  length_digits : digits.length = 32
deriving DecidableEq

namespace GroupId

/-- The group id that a cluster is bootstrapped with. -/
def bootstrap : GroupId where
  digits := [0, 0, 0, 0, 0, 0, 0, 1, 0, 0, 0, 1, 0, 0, 0, 1, 0, 0, 0, 1,
    0, 0, 0, 0, 0, 0, 0, 0, 0, 0, 0, 1]
  length_digits := rfl

instance : Inhabited GroupId := ⟨bootstrap⟩

/-- Whether this is the id that a cluster is bootstrapped with. -/
def isBootstrap (id : GroupId) : Bool := id = bootstrap

/-! ### Writing -/

/-- The lower-case character of a hexadecimal digit. -/
def digitChar (d : Fin 16) : Char :=
  if d.val < 10 then Char.ofNat ('0'.toNat + d.val) else Char.ofNat ('a'.toNat + d.val - 10)

/-- The digits of the five groups, with hyphens between them. -/
def hyphenate (cs : List Char) : List Char :=
  cs.take 8 ++ '-' :: ((cs.drop 8).take 4 ++ '-' :: ((cs.drop 12).take 4 ++ '-' ::
    ((cs.drop 16).take 4 ++ '-' :: cs.drop 20)))

/-- The hyphenated form. -/
def text (id : GroupId) : String := String.ofList (hyphenate (id.digits.map digitChar))

instance : ToString GroupId := ⟨text⟩

/-! ### Reading -/

/-- The value of a hexadecimal digit. -/
def hexDigit? (c : Char) : Option (Fin 16) :=
  match Text.digitValue? c with
  | some n => if h : n < 16 then some ⟨n, h⟩ else none
  | none => none

/-- The id with exactly these digits. -/
def ofHex? (cs : List Char) : Option GroupId :=
  match cs.mapM hexDigit? with
  | some ds => if h : ds.length = 32 then some ⟨ds, h⟩ else none
  | none => none

/-- The digits of a hyphenated form, if it has its hyphens where they belong. -/
def dropHyphens? (cs : List Char) : Option (List Char) :=
  let plain := cs.take 8 ++ (cs.drop 9).take 4 ++ (cs.drop 14).take 4 ++ (cs.drop 19).take 4
    ++ cs.drop 24
  if hyphenate plain = cs then some plain else none

/-- The id with this hyphenated form. -/
def ofHyphenated? (cs : List Char) : Option GroupId :=
  match dropHyphens? cs with
  | some plain => ofHex? plain
  | none => none

/-- The mark in front of the name form. -/
def nameMark : List Char := "urn:uuid:".toList

/-- What follows the mark of the name form, which may have either case. -/
def unnamed? (cs : List Char) : Option (List Char) :=
  if (cs.take nameMark.length).map Char.toLower = nameMark then some (cs.drop nameMark.length)
  else none

/-- The form in which an id is given, decided by its length in bytes and its frame alone. -/
inductive Form where
  /-- Digits without hyphens. -/
  | plain
  /-- Digits with hyphens; `inner` is the text without braces or name mark. -/
  | hyphenated (inner : List Char)
  /-- No form of an id. -/
  | unknown

/-- The text between braces. -/
def unbraced? (cs : List Char) : Option (List Char) :=
  match cs with
  | '\x7b' :: rest => Text.dropBack? ['\x7d'] rest
  | _ => none

/-- The form of a text. -/
def Form.of (cs : List Char) : Form :=
  match Text.byteLength cs with
  | 32 => .plain
  | 36 => .hyphenated cs
  | 38 =>
    match unbraced? cs with
    | some inner => .hyphenated inner
    | none => .unknown
  | 45 =>
    match unnamed? cs with
    | some inner => .hyphenated inner
    | none => .unknown
  | _ => .unknown

/-- Why a text is not a group id. -/
inductive ReadError where
  /-- The text is empty, too long, or has digits only but not 32 of them. -/
  | length (found : Nat)
  /-- A character that is neither a digit nor a hyphen. -/
  | character (found : Char) (offset : Nat)
  /-- Not five groups. -/
  | groupCount (found : Nat)
  /-- A group with the wrong number of digits. -/
  | groupLength (group expected found : Nat)
deriving DecidableEq, Repr

namespace ReadError

/-- The message for the operator. -/
def message : ReadError → String
  | length found => "invalid length: found " ++ Text.numeral found
  | character found offset =>
    "invalid character: found `" ++ String.ofList [found] ++ "` at " ++ Text.numeral offset
  | groupCount found => "invalid group count: expected 5, found " ++ Text.numeral found
  | groupLength group expected found =>
    "invalid group length in group " ++ Text.numeral group ++ ": expected "
      ++ Text.numeral expected ++ ", found " ++ Text.numeral found

end ReadError

/-- The first character of `cs` that is neither a digit nor a hyphen, with its byte offset. -/
def foreign? : List Char → Nat → Option (Char × Nat)
  | [], _ => none
  | c :: cs, offset =>
    if c = '-' ∨ (hexDigit? c).isSome then foreign? cs (offset + c.utf8Size) else some (c, offset)

/-- The byte offsets of the hyphens of `cs`. -/
def hyphenOffsets : List Char → Nat → List Nat
  | [], _ => []
  | c :: cs, offset =>
    if c = '-' then offset :: hyphenOffsets cs (offset + 1)
    else hyphenOffsets cs (offset + c.utf8Size)

/-- The first of the four leading groups whose closing hyphen is not where it belongs. Each entry
gives the number of a group, its start and its length. -/
def misplaced? : List (Nat × Nat × Nat) → List Nat → Option ReadError
  | (group, start, size) :: rest, offset :: offsets =>
    if offset = start + size then misplaced? rest offsets
    else some (.groupLength group size (offset - start))
  | _, _ => none

/-- The four leading groups: number, start and length. -/
def leadingGroups : List (Nat × Nat × Nat) := [(0, 0, 8), (1, 9, 4), (2, 14, 4), (3, 19, 4)]

/-- The part of an unreadable text that is looked at: its offset in the text, its characters, and
whether it could have been meant as digits without hyphens. -/
def inspected (cs : List Char) : Nat × List Char × Bool :=
  match unbraced? cs with
  | some inner => (1, inner, false)
  | none =>
    match unnamed? cs with
    | some inner => (9, inner, false)
    | none => (0, cs, true)

/-- Diagnoses the part of an unreadable text of `size` bytes that is looked at. -/
def diagnosePart (size : Nat) : Nat × List Char × Bool → ReadError
  | (offset, part, maybePlain) =>
    match foreign? part offset with
    | some (c, at_) => .character c at_
    | none =>
      let hyphens := hyphenOffsets part 0
      if hyphens.isEmpty && maybePlain then .length size
      else if hyphens.length ≠ 4 then .groupCount (hyphens.length + 1)
      else
        match misplaced? leadingGroups hyphens with
        | some error => error
        | none => .groupLength 4 12 (size - 24)

/-- Diagnoses an unreadable text. -/
def diagnose (cs : List Char) : ReadError :=
  let size := Text.byteLength cs
  match Form.of cs with
  | .hyphenated inner => diagnosePart (Text.byteLength inner) (0, inner, false)
  | _ => if size = 0 ∨ 45 < size then .length size else diagnosePart size (inspected cs)

/-- Reads an id in any of its forms. -/
def readChars (cs : List Char) : Except ReadError GroupId :=
  let found :=
    match Form.of cs with
    | .plain => ofHex? cs
    | .hyphenated inner => ofHyphenated? inner
    | .unknown => none
  match found with
  | some id => .ok id
  | none => .error (diagnose cs)

/-- Reads an id in any of its forms; nothing may stand around it. -/
def read (s : String) : Except ReadError GroupId := readChars s.toList

/-- Reads an id that an operator typed, which may have blanks around it. -/
def ofString (s : String) : Except ReadError GroupId := readChars (Text.trimChars s.toList)

end GroupId

end RaftAdmin
