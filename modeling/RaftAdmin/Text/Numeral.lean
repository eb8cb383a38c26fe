/-!
# Decimal numerals

Ports, priorities, durations and commit indices are written as decimal numerals.

## The model

`digits` writes a natural number without leading zeros. Reading takes ASCII digits only: an
optional `+` (and, for signed values, `-`) and at least one digit, leading zeros allowed, nothing
else. A value outside the range of its type is not a numeral of that type.
-/

namespace RaftAdmin.Text

/-- The decimal digits of a natural number. -/
def digits (n : Nat) : List Char := Nat.toDigits 10 n

/-- The decimal numeral of a natural number. -/
def numeral (n : Nat) : String := String.ofList (digits n)

/-- The decimal numeral of an integer. -/
def signedNumeral : Int → String
  | .ofNat n => numeral n
  | .negSucc n => "-" ++ numeral (n + 1)

/-- The value of a digit in bases up to sixteen, in either case. -/
def digitValue? (c : Char) : Option Nat :=
  if '0' ≤ c ∧ c ≤ '9' then some (c.toNat - '0'.toNat)
  else if 'a' ≤ c ∧ c ≤ 'f' then some (c.toNat - 'a'.toNat + 10)
  else if 'A' ≤ c ∧ c ≤ 'F' then some (c.toNat - 'A'.toNat + 10)
  else none

/-- Whether a character is an ASCII decimal digit. -/
def isDigit (c : Char) : Bool := '0' ≤ c && c ≤ '9'

/-- The value of a digit string in `base`, continuing from `value`. -/
def valueFrom? (base : Nat) : Nat → List Char → Option Nat
  | value, [] => some value
  | value, c :: cs =>
    match digitValue? c with
    | some d => if d < base then valueFrom? base (value * base + d) cs else none
    | none => none

/-- The value of a nonempty digit string in `base`. -/
def value? (base : Nat) (cs : List Char) : Option Nat :=
  if cs.isEmpty then none else valueFrom? base 0 cs

/-- The text without one leading plus sign. -/
def dropPlus : List Char → List Char
  | '+' :: cs => cs
  | cs => cs

/-- Reads a natural number below `bound`: digits, with an optional plus sign. -/
def readNat? (bound : Nat) (cs : List Char) : Option Nat :=
  (value? 10 (dropPlus cs)).filter (· < bound)

/-- Reads an integer from `-bound` up to, not including, `bound`: digits, with an optional sign. -/
def readInt? (bound : Nat) : List Char → Option Int
  | '-' :: cs => ((value? 10 cs).filter (· ≤ bound)).map fun n => -(n : Int)
  | cs => (readNat? bound cs).map fun n => (n : Int)

end RaftAdmin.Text
