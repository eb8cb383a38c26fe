import RaftAdmin.Yaml.Tag
import RaftAdmin.Yaml.Value

/-!
# The meaning of plain scalars

A plain scalar may be nothing, a truth value or a number; otherwise it is a text.

## The model

Numbers are decimal without needless zeros in front, or hexadecimal, octal or binary. An integer
must fit into 64 bits; one that needs more, but no more than 128, has no meaning at all, and a
larger one is a floating-point number.
-/

namespace RaftAdmin.Yaml

/-- Whether a scalar means nothing. -/
def isNull (s : String) : Bool := s = "~" || s = "null" || s = "Null" || s = "NULL"

/-- Reads a truth value. -/
def readBool? (s : String) : Option Bool :=
  if s = "true" ∨ s = "True" ∨ s = "TRUE" then some true
  else if s = "false" ∨ s = "False" ∨ s = "FALSE" then some false
  else none

/-- The scalar without a sign in front. -/
def dropSign : List Char → List Char
  | '+' :: cs => cs
  | '-' :: cs => cs
  | cs => cs

/-- Whether a scalar consists of digits with a needless zero in front. -/
def hasNeedlessZero (cs : List Char) : Bool :=
  let ds := dropSign cs
  ds.length > 1 && ds.head? = some '0' && ds.all Text.isDigit

/-- The base that a number is written in, if it is not ten, and its digits. -/
def withBase : List Char → Option (Nat × List Char)
  | '0' :: 'x' :: ds => some (16, ds)
  | '0' :: 'o' :: ds => some (8, ds)
  | '0' :: 'b' :: ds => some (2, ds)
  | _ => none

/-- Reads an integer without its sign. -/
def readMagnitude? (cs : List Char) : Option Nat :=
  match withBase cs with
  | some (base, ds) => Text.value? base ds
  | none => if hasNeedlessZero cs then none else Text.value? 10 cs

/-- Reads an integer. -/
def readInteger? : List Char → Option Int
  | '+' :: cs => (readMagnitude? cs).map fun n => (n : Int)
  | '-' :: cs => (readMagnitude? cs).map fun n => -(n : Int)
  | cs => (readMagnitude? cs).map fun n => (n : Int)

/-- Whether an integer fits into so many bits, with or without sign. -/
def fits (bits : Nat) (n : Int) : Bool :=
  -(Nat.pow 2 (bits - 1) : Nat) ≤ n && n < (Nat.pow 2 bits : Nat)

/-- What reading an integer gives. -/
inductive IntegerReading where
  /-- The scalar is no integer that could be told from a floating-point number. -/
  | other
  /-- It is an integer. -/
  | integer (n : Int)
  /-- It is an integer that has no meaning. -/
  | tooLarge

/-- Reads a scalar as an integer. -/
def readInteger (cs : List Char) : IntegerReading :=
  match readInteger? cs with
  | none => .other
  | some n => if fits 64 n then .integer n else if fits 128 n then .tooLarge else .other

/-- The name of a special floating-point number. -/
def specialFloat? (s : String) : Option Binary64 :=
  if s = ".inf" ∨ s = ".Inf" ∨ s = ".INF" ∨ s = "+.inf" ∨ s = "+.Inf" ∨ s = "+.INF" then
    some .infinity
  else if s = "-.inf" ∨ s = "-.Inf" ∨ s = "-.INF" then some Binary64.infinity.negate
  else if s = ".nan" ∨ s = ".NaN" ∨ s = ".NAN" then some .nan
  else none

/-- Reads a floating-point number; one beyond all finite numbers is none. -/
def readFloat? (s : String) : Option Binary64 :=
  match specialFloat? s with
  | some x => some x
  | none => (Binary64.read? s.toList).filter fun x => !x.isInfinite && !x.isNaN

/-- The meaning of a plain scalar, if it has one. -/
def readPlain (s : String) : Option Value :=
  if s.isEmpty || isNull s then some .null
  else
    match readBool? s with
    | some b => some (.bool b)
    | none =>
      match readInteger s.toList with
      | .integer n => some (.number (.integer n))
      | .tooLarge => none
      | .other =>
        if hasNeedlessZero s.toList then some (.text s)
        else
          match readFloat? s with
          | some x => some (.number (.float x))
          | none => some (.text s)

/-- The meaning of a scalar with a tag of the language, or with another tag that has no name. -/
def readTaggedScalar (tag : Tag) (s : String) : Option Value :=
  if tag = .language "bool" then (readBool? s).map .bool
  else if tag = .language "int" then
    match readInteger s.toList with
    | .integer n => some (.number (.integer n))
    | _ => none
  else if tag = .language "float" then (readFloat? s).map fun x => .number (.float x)
  else if tag = .language "null" then if isNull s then some .null else none
  else some (.text s)

end RaftAdmin.Yaml
