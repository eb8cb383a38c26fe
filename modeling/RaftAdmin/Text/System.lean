import RaftAdmin.Text.Split

/-!
# Texts of the system

Arguments and paths come from the operating system as bytes. They are texts in UTF-8 as a rule, but
the system does not insist on it.

## The model

`OsText` keeps texts and bytes that are no text apart, so every sequence of bytes is written in one
way only. What separates parts is an ASCII character, whose byte is part of no other character;
therefore bytes are cut as texts are, and the parts may be texts again. Wherever bytes that are no
text are shown, each piece that is no character stands as the replacement character: a piece is as
long as a character could still begin with it.
-/

namespace RaftAdmin

/-- A text of the system. -/
inductive OsText where
  /-- A text in UTF-8. -/
  | text (s : String)
  /-- Bytes that are not UTF-8. -/
  | raw (bytes : List UInt8) (h : ¬ bytes.toByteArray.IsValidUTF8)
deriving DecidableEq, Repr

namespace OsText

instance : Inhabited OsText := ⟨.text ""⟩

instance : Coe String OsText := ⟨.text⟩

instance : Coe (List String) (List OsText) := ⟨List.map .text⟩

/-- The text of the system with these bytes. -/
def ofBytes (bytes : List UInt8) : OsText :=
  if h : bytes.toByteArray.IsValidUTF8 then .text (.ofByteArray bytes.toByteArray h)
  else .raw bytes h

/-- The text, if it is one. -/
def text? : OsText → Option String
  | text s => some s
  | raw _ _ => none

/-! ### Pieces of bytes -/

/-- A character of which some bytes were read. -/
structure Partial where
  /-- The number that these bytes come to. -/
  value : Nat
  /-- How many bytes are missing. -/
  missing : Nat
  /-- The least byte that may come next. -/
  low : UInt8
  /-- The greatest byte that may come next. -/
  high : UInt8
deriving DecidableEq

/-- What begins with a byte outside of ASCII, if a character does. -/
def lead? (b : UInt8) : Option Partial :=
  if 0xC2 ≤ b ∧ b ≤ 0xDF then some ⟨b.toNat - 0xC0, 1, 0x80, 0xBF⟩
  else if 0xE0 ≤ b ∧ b ≤ 0xEF then
    some ⟨b.toNat - 0xE0, 2, if b = 0xE0 then 0xA0 else 0x80, if b = 0xED then 0x9F else 0xBF⟩
  else if 0xF0 ≤ b ∧ b ≤ 0xF4 then
    some ⟨b.toNat - 0xF0, 3, if b = 0xF0 then 0x90 else 0x80, if b = 0xF4 then 0x8F else 0xBF⟩
  else none

/-- Reads a byte between two characters: the pieces that it completes, and what it begins. -/
def readFirst (b : UInt8) : List (Option Char) × Option Partial :=
  if b < 0x80 then ([some (Char.ofNat b.toNat)], none)
  else
    match lead? b with
    | some p => ([], some p)
    | none => ([none], none)

/-- Reads a byte after a part of a character. A byte that cannot go on with it breaks it off. -/
def readNext (p : Partial) (b : UInt8) : List (Option Char) × Option Partial :=
  if p.low ≤ b ∧ b ≤ p.high then
    let value := p.value * 64 + (b.toNat - 0x80)
    if p.missing = 1 then ([some (Char.ofNat value)], none)
    else ([], some ⟨value, p.missing - 1, 0x80, 0xBF⟩)
  else
    let (completed, p?) := readFirst b
    (none :: completed, p?)

/-- The pieces of bytes after a part of a character: the characters, and `none` for what is no
character. -/
def pieces : Option Partial → List UInt8 → List (Option Char)
  | none, [] => []
  | some _, [] => [none]
  | p?, b :: bs =>
    let (completed, p?) := (p?.map fun p => readNext p b).getD (readFirst b)
    completed ++ pieces p? bs

/-- The bytes as a text, with replacement characters. -/
def showBytes (bytes : List UInt8) : String :=
  String.ofList ((pieces none bytes).map fun piece => piece.getD '\uFFFD')

/-- The text as it is shown. -/
def shown : OsText → String
  | text s => s
  | raw bytes _ => showBytes bytes

/-- A euro sign between the beginning of one and a byte that begins nothing. -/
example : showBytes [0xE2, 0x82, 0xE2, 0x82, 0xAC, 0xFF, 0x41] = "\uFFFD€\uFFFDA" := by decide

/-! ### Parts -/

/-- The byte of an ASCII character. -/
def byteOf (c : Char) : UInt8 := c.val.toUInt8

/-- The text of the system with these characters. -/
def ofChars (cs : List Char) : OsText := .text (String.ofList cs)

/-- The parts between the occurrences of an ASCII character. -/
def splitAt (sep : Char) : OsText → List OsText
  | text s => (Text.splitBy (· == sep) s.toList).map ofChars
  | raw bytes _ => (Text.splitBy (· == byteOf sep) bytes).map ofBytes

/-- What comes before and after the first occurrence of an ASCII character. -/
def cutFirst (sep : Char) : OsText → Option (OsText × OsText)
  | text s => (Text.cutFirst (· == sep) s.toList).map (Prod.map ofChars ofChars)
  | raw bytes _ => (Text.cutFirst (· == byteOf sep) bytes).map (Prod.map ofBytes ofBytes)

/-- What comes before and after the last occurrence of an ASCII character. -/
def cutLast (sep : Char) : OsText → Option (OsText × OsText)
  | text s => (Text.cutLast (· == sep) s.toList).map (Prod.map ofChars ofChars)
  | raw bytes _ => (Text.cutLast (· == byteOf sep) bytes).map (Prod.map ofBytes ofBytes)

/-- What follows an ASCII character at the start. -/
def dropFirst? (c : Char) : OsText → Option OsText
  | text s => (Text.dropFront? [c] s.toList).map ofChars
  | raw bytes _ =>
    match bytes with
    | b :: bs => if b = byteOf c then some (ofBytes bs) else none
    | [] => none

/-- The first piece: a character, or `none` for what is no character. -/
def firstPiece? : OsText → Option (Option Char)
  | text s => s.toList.head?.map some
  | raw bytes _ => (pieces none bytes).head?

end OsText

end RaftAdmin
