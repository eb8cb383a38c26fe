import RaftAdmin.Text.Numeral

/-!
# YAML tags

A tag says what a node is meant to be, beyond what it looks like.

## The model

A tag is a sequence of octets, since it may be written octet by octet; nothing says that they
encode characters. Zero ends a tag wherever it occurs. Tags of the language have a front of their
own, and a tag that starts with an exclamation mark is an own tag of the document; its name does not
count the mark, nor a second one, unless nothing else is left. Own tags whose octets encode no text
have no name.
-/

namespace RaftAdmin.Yaml

/-- Some octets. -/
abbrev Octets := List UInt8

/-- The octets of a text. -/
def Octets.ofString (s : String) : Octets := s.toUTF8.toList

/-- A tag that nodes can be told to have. -/
structure Tag where
  /-- Its octets. -/
  octets : Octets
deriving DecidableEq, Repr

namespace Tag

/-- The tag of some octets: zero ends it. -/
def ofOctets (octets : Octets) : Tag := ⟨octets.takeWhile (· ≠ 0)⟩

/-- A tag with octets in front of it. -/
def after (t : Tag) (front : Tag) : Tag := ⟨front.octets ++ t.octets⟩

/-- Whether nothing is left of a tag. -/
def isEmpty (t : Tag) : Bool := t.octets.isEmpty

/-- The octet of the exclamation mark. -/
def mark : UInt8 := 0x21

/-- The tag that is nothing but an exclamation mark. -/
def bang : Tag := ⟨[mark]⟩

/-- What all tags of the language start with. -/
def languageFront : Tag := ⟨.ofString "tag:yaml.org,2002:"⟩

/-- A tag of the language. -/
def language (name : String) : Tag := after ⟨.ofString name⟩ languageFront

/-- Whether a tag is an own tag of the document. -/
def isOwn (t : Tag) : Bool := t.octets.head? = some mark

/-- The octets without a mark in front, unless nothing else is left. -/
def withoutMark : Octets → Octets
  | o :: p :: os => if o = mark then p :: os else o :: p :: os
  | os => os

/-- The name of an own tag. -/
def ownName? (t : Tag) : Option String :=
  if t.isOwn then String.fromUTF8? (ByteArray.mk (withoutMark (withoutMark t.octets)).toArray)
  else none

/-- A zero octet and all that follows it do not count. -/
theorem ofOctets_append_zero (front back : Octets) :
    ofOctets (front ++ 0 :: back) = ofOctets front := by
  induction front with
  | nil => rfl
  | cons o os ih => by_cases h : o = 0 <;> simp_all [ofOctets]

end Tag

/-! ### Written tags -/

/-- A tag as it is written: a handle, and what follows it. -/
structure WrittenTag where
  /-- The handle, with its exclamation marks, or nothing. -/
  handle : String
  /-- What follows the handle. -/
  suffix : Tag
deriving DecidableEq, Repr

/-! ### Octets of characters -/

/-- How many octets an encoded character takes, going by its first one. -/
def encodedLength? (octet : UInt8) : Option Nat :=
  if octet < 0x80 then some 1
  else if octet / 0x20 = 6 then some 2
  else if octet / 0x10 = 14 then some 3
  else if octet / 0x08 = 30 then some 4
  else none

/-- Whether an octet may follow the first one of a character. -/
def isFurtherOctet (octet : UInt8) : Bool := octet / 0x40 = 2

/-- Reads an octet that is written as a percent sign and two digits. -/
def readOctet : List Char → Option (UInt8 × List Char)
  | '%' :: a :: b :: cs => (Text.valueFrom? 16 0 [a, b]).map fun n => (UInt8.ofNat n, cs)
  | _ => none

/-- Reads further octets of an encoded character. -/
def readFurtherOctets : Nat → List Char → Option Octets
  | 0, _ => some []
  | n + 1, cs =>
    match readOctet cs with
    | none => none
    | some (octet, cs) =>
      if isFurtherOctet octet then (readFurtherOctets n cs).map (octet :: ·) else none

/-- Reads the octets of an encoded character. Whether they encode one is not looked at. -/
def readEncoded (cs : List Char) : Option Octets :=
  match readOctet cs with
  | none => none
  | some (octet, rest) =>
    match encodedLength? octet with
    | none => none
    | some length => (readFurtherOctets (length - 1) rest).map (octet :: ·)

end RaftAdmin.Yaml
