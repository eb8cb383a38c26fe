import RaftAdmin.Decimal.Binary64

/-!
# JSON values

A JSON value as a text spells it.

## The model

Two spellings matter beyond the values they denote. A number keeps its fraction and exponent as
written, since `1.0` is no integer. A string literal may escape one half of a surrogate pair alone;
such a literal denotes no text (`none`), which is an error only where its text is needed.

Whether a number is too large is decided on two roundings, of its significand and of a power of ten.
The significand is what 64 bits hold of its digits: from the first digit on that does not fit, the
digits of the integer part only count for the exponent, and those of the fraction not at all.
-/

namespace RaftAdmin.Json

/-- The text a string literal denotes. -/
abbrev Literal := Option String

/-- A number as it is written. -/
structure Number where
  /-- Whether it starts with a minus sign. -/
  negative : Bool
  /-- The integer part. -/
  whole : Nat
  /-- Point, fraction and exponent. -/
  tail : List Char
deriving DecidableEq, Repr

/-- A value. -/
inductive Value where
  /-- The literal `null`. -/
  | null
  /-- A truth value. -/
  | bool (b : Bool)
  /-- A number. -/
  | number (n : Number)
  /-- A string. -/
  | text (t : Literal)
  /-- An array. -/
  | array (items : List Value)
  /-- An object: its members in order, with repetitions. -/
  | object (members : List (Literal × Value))
deriving Inhabited

namespace Number

/-- The number without fraction and exponent. -/
def ofNat (n : Nat) : Number := ⟨false, n, []⟩

/-- The natural number that is written as an integer without sign. -/
def toNat? (n : Number) : Option Nat := if n.tail.isEmpty && !n.negative then some n.whole else none

/-- Continues a significand with digits as long as it fits into 64 bits: the significand, and how
many digits are left. -/
def continueWith : Nat → List Char → Nat × Nat
  | s, [] => (s, 0)
  | s, d :: ds =>
    let next := s * 10 + (Text.digitValue? d).getD 0
    if next < UInt64.size then continueWith next ds else (s, ds.length + 1)

/-- The digits of the fraction. -/
def fraction (n : Number) : List Char :=
  match n.tail with
  | '.' :: cs => cs.takeWhile Text.isDigit
  | _ => []

/-- The exponent that is written. -/
def writtenExponent (n : Number) : Int :=
  (Binary64.exponent? (n.tail.dropWhile fun c => c = '.' || Text.isDigit c)).getD 0

/-- The significand, and the exponent that goes with it. -/
def scaled (n : Number) : Nat × Int :=
  let (s, above) := continueWith 0 (Text.digits n.whole)
  let (s, lost) := continueWith s n.fraction
  (s, n.writtenExponent + above - (n.fraction.length - lost : Nat))

/-- The highest power of ten that a double-precision number is near to. -/
def highestPower : Int := 308

/-- Whether the number is within the range of double-precision numbers. -/
def isFinite (n : Number) : Bool :=
  let (s, e) := n.scaled
  s = 0 || e < 0
    || (e ≤ highestPower
      && !((Binary64.ofDecimal s 0).product (Binary64.ofDecimal 1 e)).isInfinite)

end Number

namespace Value

/-- A string value. -/
def ofString (s : String) : Value := .text (some s)

/-- A natural number. -/
def ofNat (n : Nat) : Value := .number (.ofNat n)

/-- An object with these members. -/
def ofMembers (members : List (String × Value)) : Value :=
  .object (members.map fun (name, v) => (some name, v))

/-- The text of a string value. -/
def toText? : Value → Option String
  | .text t => t
  | _ => none

/-- The truth value of a truth value. -/
def toBool? : Value → Option Bool
  | .bool b => some b
  | _ => none

/-- The natural number below `bound` that is written as an integer. -/
def toNat? (bound : Nat) : Value → Option Nat
  | .number n => n.toNat?.filter (· < bound)
  | _ => none

/-- The items of an array. -/
def toItems? : Value → Option (List Value)
  | .array items => some items
  | _ => none

/-- The members of an object whose names are all texts. -/
def toMembers? : Value → Option (List (String × Value))
  | .object members => members.mapM fun (name, v) => name.map fun n => (n, v)
  | _ => none

mutual

/-- Whether a value can be kept as data: its literals denote texts, its numbers are finite, and its
containers nest at most `depth` deep. -/
def isPlain : Nat → Value → Bool
  | _, .null => true
  | _, .bool _ => true
  | _, .number n => n.isFinite
  | _, .text t => t.isSome
  | 0, .array _ => false
  | depth + 1, .array items => areItemsPlain depth items
  | 0, .object _ => false
  | depth + 1, .object members => areMembersPlain depth members

/-- Whether all items of an array can be kept. -/
def areItemsPlain : Nat → List Value → Bool
  | _, [] => true
  | depth, v :: vs => isPlain depth v && areItemsPlain depth vs

/-- Whether all members of an object can be kept. -/
def areMembersPlain : Nat → List (Literal × Value) → Bool
  | _, [] => true
  | depth, (name, v) :: ms => name.isSome && isPlain depth v && areMembersPlain depth ms

end

end Value

end RaftAdmin.Json
