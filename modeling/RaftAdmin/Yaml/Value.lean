import RaftAdmin.Decimal.Binary64
import RaftAdmin.Decimal.Shortest

/-!
# YAML values

What a document means.

## The model

A mapping keeps its entries in order, and no two keys are the same. Integers and floating-point
numbers are never the same, and numbers that are none are all the same. The order of the entries
does not matter when mappings are compared.
-/

namespace RaftAdmin.Yaml

/-- A number. -/
inductive Number where
  /-- An integer. -/
  | integer (n : Int)
  /-- A floating-point number. -/
  | float (x : Binary64)
deriving DecidableEq, Repr, Inhabited

namespace Number

/-- A positive decimal in positional notation up to `10 ^ 16` and from `10 ^ -5` on, else with an
exponent. -/
def decimalText (x : Decimal) : List Char :=
  let ds := Text.digits x.digits
  let point : Int := ds.length + x.exponent
  if 0 ≤ x.exponent ∧ point ≤ 16 then
    ds ++ List.replicate x.exponent.toNat '0' ++ ['.', '0']
  else if 0 < point ∧ point ≤ 16 then
    ds.take point.toNat ++ '.' :: ds.drop point.toNat
  else if -5 < point ∧ point ≤ 0 then
    '0' :: '.' :: List.replicate (-point).toNat '0' ++ ds
  else
    let fraction := ds.drop 1
    ds.take 1 ++ (if fraction.isEmpty then [] else '.' :: fraction) ++ 'e'
      :: (Text.signedNumeral (point - 1)).toList

/-- The shortest decimal that reads back, or a name. -/
def floatText (x : Binary64) : String :=
  let sign := if x.isNegative then "-" else ""
  if x.isNaN then ".nan"
  else if x.isInfinite then sign ++ ".inf"
  else if x.magnitude = 0 then sign ++ "0.0"
  else
    let (m, q) := x.parts
    sign ++ String.ofList (decimalText (Decimal.shortest m q))

/-- The text of a number. -/
def text : Number → String
  | integer n => Text.signedNumeral n
  | float x => floatText x

/-- Whether two numbers are the same. -/
def same : Number → Number → Bool
  | integer m, integer n => m = n
  | float x, float y =>
    (x.isNaN && y.isNaN) || (!x.isNaN && x.bits = y.bits)
      || (x.magnitude = 0 && y.magnitude = 0)
  | _, _ => false

end Number

/-- A value. -/
inductive Value where
  /-- Nothing. -/
  | null
  /-- A truth value. -/
  | bool (b : Bool)
  /-- A number. -/
  | number (n : Number)
  /-- A text. -/
  | text (s : String)
  /-- A sequence. -/
  | sequence (items : List Value)
  /-- A mapping. -/
  | mapping (entries : List (Value × Value))
  /-- A value with the name of an own tag of the document. -/
  | tagged (tag : String) (value : Value)
deriving Inhabited

namespace Value

mutual

/-- Whether two values are the same. -/
def same : Value → Value → Bool
  | .null, .null => true
  | .bool b, .bool c => b = c
  | .number m, .number n => m.same n
  | .text s, .text t => s = t
  | .sequence us, .sequence vs => sameItems us vs
  | .mapping us, .mapping vs => us.length = vs.length && sameEntries us vs
  | .tagged s u, .tagged t v => s = t && same u v
  | _, _ => false

/-- Whether two lists of items are the same. -/
def sameItems : List Value → List Value → Bool
  | [], [] => true
  | u :: us, v :: vs => same u v && sameItems us vs
  | _, _ => false

/-- Whether all entries occur among others. -/
def sameEntries : List (Value × Value) → List (Value × Value) → Bool
  | [], _ => true
  | (k, u) :: us, vs => hasEntry k u vs && sameEntries us vs

/-- Whether an entry occurs among others. -/
def hasEntry (k u : Value) : List (Value × Value) → Bool
  | [] => false
  | (l, v) :: vs => (same k l && same u v) || hasEntry k u vs

end

end Value

end RaftAdmin.Yaml
