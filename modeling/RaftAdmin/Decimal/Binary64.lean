import RaftAdmin.Text.Numeral

/-!
# Double-precision numbers

A double-precision number is kept as its 64 bits. A decimal is read as the nearest such number.

## The model

A finite number is `m · 2 ^ q` with `m < 2 ^ 53` and `-1074 ≤ q`, and for `q > -1074` also
`2 ^ 52 ≤ m`; its bits are then `(q + 1074) · 2 ^ 52 + m`. Rounding is exact: a quotient of natural
numbers goes to the nearest number, and of two equally near ones to the one with even `m`. A number
too large for `q = 971` becomes infinite.
-/

namespace RaftAdmin

/-- A double-precision number by its bits. -/
structure Binary64 where
  /-- Sign, exponent and fraction. -/
  bits : UInt64
deriving DecidableEq, Repr, Inhabited

namespace Binary64

/-- Positive infinity. -/
def infinity : Binary64 := ⟨0x7FF0000000000000⟩

/-- The number that is none. -/
def nan : Binary64 := ⟨0x7FF8000000000000⟩

/-- The number with its sign set. -/
def negate (x : Binary64) : Binary64 := ⟨x.bits ||| 0x8000000000000000⟩

/-- Whether the sign is set. -/
def isNegative (x : Binary64) : Bool := x.bits.toNat ≥ Nat.pow 2 63

/-- The bits without the sign. -/
def magnitude (x : Binary64) : Nat := x.bits.toNat % Nat.pow 2 63

/-- Whether the number is none. -/
def isNaN (x : Binary64) : Bool := x.magnitude > infinity.bits.toNat

/-- Whether the number is infinite. -/
def isInfinite (x : Binary64) : Bool := x.magnitude = infinity.bits.toNat

/-- The pair `(m, q)` of a finite number `± m · 2 ^ q`. -/
def parts (x : Binary64) : Nat × Int :=
  let exponent : Nat := x.magnitude / Nat.pow 2 52
  let fraction : Nat := x.magnitude % Nat.pow 2 52
  if exponent = 0 then (fraction, -1074) else (fraction + Nat.pow 2 52, (exponent : Int) - 1075)

/-- `num / den` rounded to the nearest natural number, a half to the even one. -/
def roundDiv (num den : Nat) : Nat :=
  let q := num / den
  let r := num % den
  if 2 * r < den then q
  else if den < 2 * r then q + 1
  else if q % 2 = 0 then q else q + 1

/-- Numerator and denominator of `num / den / 2 ^ q`. -/
def scale (num den : Nat) : Int → Nat × Nat
  | .ofNat q => (num, den * Nat.pow 2 q)
  | .negSucc q => (num * Nat.pow 2 (q + 1), den)

/-- The exponent `q` for the quotient of two positive numbers. -/
def exponentFor (num den : Nat) : Int :=
  let q := max ((Nat.log2 num : Int) - (Nat.log2 den : Int) - 53) (-1074)
  let (n, d) := scale num den q
  if n / d ≥ Nat.pow 2 53 then q + 1 else q

/-- The number nearest to the quotient of two positive numbers. -/
def ofQuotient (num den : Nat) : Binary64 :=
  let q := exponentFor num den
  let (n, d) := scale num den q
  let bits := (q + 1074).toNat * Nat.pow 2 52 + roundDiv n d
  if bits ≥ infinity.bits.toNat then infinity else ⟨UInt64.ofNat bits⟩

/-- The number nearest to `m · 10 ^ e`. -/
def ofDecimal (m : Nat) (e : Int) : Binary64 :=
  if m = 0 then ⟨0⟩
  else
    let size := ((Text.digits m).length : Int) + e
    if size > 310 then infinity
    else if size < -330 then ⟨0⟩
    else
      match e with
      | .ofNat e => ofQuotient (m * Nat.pow 10 e) 1
      | .negSucc e => ofQuotient m (Nat.pow 10 (e + 1))

/-- The product of two finite numbers, without their signs. -/
def product (x y : Binary64) : Binary64 :=
  let (m, p) := x.parts
  let (n, q) := y.parts
  if m * n = 0 then ⟨0⟩
  else
    match p + q with
    | .ofNat e => ofQuotient (m * n * Nat.pow 2 e) 1
    | .negSucc e => ofQuotient (m * n) (Nat.pow 2 (e + 1))

/-! ### Reading -/

/-- The exponent part of a decimal, if the text is one. -/
def exponent? : List Char → Option Int
  | [] => some 0
  | c :: cs =>
    if c = 'e' ∨ c = 'E' then
      match cs with
      | '-' :: ds => (Text.value? 10 ds).map fun n => -(n : Int)
      | ds => (Text.value? 10 (Text.dropPlus ds)).map fun n => (n : Int)
    else none

/-- Reads an unsigned decimal: digits with an optional point among them and an optional exponent. -/
def readDecimal? (cs : List Char) : Option Binary64 :=
  let whole := cs.takeWhile Text.isDigit
  let rest := cs.dropWhile Text.isDigit
  let (fraction, tail) :=
    match rest with
    | '.' :: more => (more.takeWhile Text.isDigit, more.dropWhile Text.isDigit)
    | _ => ([], rest)
  match Text.value? 10 (whole ++ fraction), exponent? tail with
  | some m, some e => some (ofDecimal m (e - fraction.length))
  | _, _ => none

/-- Reads an unsigned number: a decimal, or a name of infinity or of no number, in any case. -/
def readUnsigned? (cs : List Char) : Option Binary64 :=
  let word := String.ofList (cs.map Char.toLower)
  if word = "inf" ∨ word = "infinity" then some infinity
  else if word = "nan" then some nan
  else readDecimal? cs

/-- Reads a number with an optional sign. -/
def read? : List Char → Option Binary64
  | '-' :: cs => (readUnsigned? cs).map negate
  | '+' :: cs => readUnsigned? cs
  | cs => readUnsigned? cs

end Binary64

end RaftAdmin
