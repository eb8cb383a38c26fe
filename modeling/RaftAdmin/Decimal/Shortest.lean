import RaftAdmin.Decimal.Binary64

/-!
# Shortest decimals

The shortest decimal of a double-precision number is the one with the fewest digits that reads back
as the number, and of those the nearest.

## The model

The numbers that round to `m · 2 ^ q` form an interval around it, whose ends belong to it exactly
when `m` is even; below a power of two the lower half of the interval is half as long. A grid of
`n` digits has the spacing `10 ^ (p - n)`, where `10 ^ p` is the least power of ten above the
number. If a point of the grid lies in the interval, so does one of the number's two neighbours on
it, and only these are tried.
-/

namespace RaftAdmin

/-- The decimal `digits · 10 ^ exponent`. -/
structure Decimal where
  /-- The digits as one number. -/
  digits : Nat
  /-- The power of ten. -/
  exponent : Int
deriving DecidableEq, Repr, Inhabited

namespace Decimal

/-- Numerator and denominator of a number in quarters of its last place, and of its interval's two
ends. -/
structure Interval where
  /-- The common denominator. -/
  den : Nat
  /-- The lower end. -/
  low : Nat
  /-- The number. -/
  mid : Nat
  /-- The upper end. -/
  high : Nat
  /-- Whether the ends round to the number. -/
  closed : Bool

/-- The interval of `m · 2 ^ q`. -/
def intervalOf (m : Nat) (q : Int) : Interval :=
  let below := if m = Nat.pow 2 52 ∧ q > -1074 then 1 else 2
  let (unit, den) :=
    match q - 2 with
    | .ofNat e => (Nat.pow 2 e, 1)
    | .negSucc e => (1, Nat.pow 2 (e + 1))
  ⟨den, (4 * m - below) * unit, 4 * m * unit, (4 * m + 2) * unit, m % 2 = 0⟩

/-- The least `p` with `num / den < 10 ^ p`, for numbers above `10 ^ -400`. -/
def magnitude (num den : Nat) : Int :=
  ((Text.digits (num * Nat.pow 10 400 / den)).length : Int) - 400

/-- Whether `d · 10 ^ e` lies in the interval. -/
def Interval.contains (i : Interval) (d : Nat) (e : Int) : Bool :=
  let (num, den) :=
    match e with
    | .ofNat e => (d * Nat.pow 10 e, 1)
    | .negSucc e => (d, Nat.pow 10 (e + 1))
  let left := i.low * den
  let right := i.high * den
  let point := num * i.den
  if i.closed then left ≤ point && point ≤ right else left < point && point < right

/-- The two neighbours of the number on the grid of spacing `10 ^ e`: the lower one, and whether
the upper one is nearer. -/
def Interval.neighbours (i : Interval) (e : Int) : Nat × Bool :=
  let (num, den) :=
    match e with
    | .ofNat e => (i.mid, i.den * Nat.pow 10 e)
    | .negSucc e => (i.mid * Nat.pow 10 (e + 1), i.den)
  let d := num / den
  let r := num % den
  (d, 2 * r > den || (2 * r = den && d % 2 = 1))

/-- The grid point of `n` digits that reads back, if there is one. -/
def Interval.onGrid? (i : Interval) (p : Int) (n : Nat) : Option Decimal :=
  let e := p - n
  let (d, up) := i.neighbours e
  let nearer := if up then d + 1 else d
  let farther := if up then d else d + 1
  if i.contains nearer e then some ⟨nearer, e⟩
  else if i.contains farther e then some ⟨farther, e⟩
  else none

/-- The decimal without trailing zeros. -/
def strip (x : Decimal) : Decimal :=
  let zeros := ((Text.digits x.digits).reverse.takeWhile (· == '0')).length
  if x.digits = 0 then x else ⟨x.digits / Nat.pow 10 zeros, x.exponent + zeros⟩

/-- The shortest decimal of the positive number `m · 2 ^ q`. -/
def shortest (m : Nat) (q : Int) : Decimal :=
  let i := intervalOf m q
  let p := magnitude i.mid i.den
  match (List.range' 1 17).findSome? (i.onGrid? p) with
  | some x => x.strip
  | none => ⟨0, 0⟩

end Decimal

end RaftAdmin
