import ApiCatalog.Text.Digits

set_option autoImplicit false

/-!
# Decimal numbers

Decimal numbers in digits, and whether they are too large for a double. The double nearest to a
number may be infinite; so may the product of two doubles by which the number is approximated.

## Main definitions

* `ApiCatalog.Text.Decimal`: a decimal number without its sign.
* `Decimal.isInfinite`: whether the nearest double is infinite.
* `Decimal.productIsInfinite`: whether a product of two doubles is, of which the first holds as
  many digits as fit into 64 bits and the second is a power of ten.
-/

namespace ApiCatalog.Text

/-- The value of a run of decimal digits, which is zero if there are none. -/
def decimalValue (digits : List Char) : Nat :=
  (number? 10 digits).getD 0

/-- A decimal number without its sign: the digits before and after the point, and the exponent. -/
structure Decimal where
  whole : List Char
  fraction : List Char := []
  exponentNegative : Bool := false
  exponent : List Char := []

/-- The least magnitude that rounds to infinity: half a unit above the greatest double. -/
def overflowBound : Nat := (1 <<< 1024) - (1 <<< 970)

/-- A natural number rounded to the 53 significant bits of a double, a tie going to even. -/
def roundToDouble (n : Nat) : Nat :=
  let excess := n.log2 - 52
  let kept := n >>> excess
  let lost := n - (kept <<< excess)
  let half := (1 <<< excess) / 2
  let isUp := 0 < excess && (half < lost || (lost = half && kept % 2 = 1))
  (if isUp then kept + 1 else kept) <<< excess

/-- Appends digits to a number as long as it fits into 64 bits: the number, and the digits that are
left. -/
def appendDigits (n : Nat) : List Char → Nat × List Char
  | [] => (n, [])
  | c :: rest =>
    let longer := n * 10 + (c.toNat - '0'.toNat)
    if longer < UInt64.size then appendDigits longer rest else (n, c :: rest)

namespace Decimal

/-- The exponent with its sign. -/
def power (decimal : Decimal) : Int :=
  let magnitude : Int := decimalValue decimal.exponent
  if decimal.exponentNegative then -magnitude else magnitude

/-- Whether the double nearest to a number is infinite. The number of digits settles all but the
magnitudes near the bound. -/
def isInfinite (decimal : Decimal) : Bool :=
  let digits := (decimal.whole ++ decimal.fraction).dropWhile (· = '0')
  let power := decimal.power - decimal.fraction.length
  if digits.isEmpty || digits.length + power < 300 then false
  else if 320 < digits.length + power then true
  else if power < 0 then overflowBound * Nat.pow 10 (-power).toNat ≤ decimalValue digits
  else overflowBound ≤ decimalValue digits * Nat.pow 10 power.toNat

/-- The leading digits of a number that fit into 64 bits, and the exponent that they take. Digits
dropped before the point raise it, and digits kept after the point lower it. -/
def leading (decimal : Decimal) : Nat × Int :=
  let (whole, dropped) := appendDigits 0 decimal.whole
  let (digits, ignored) := appendDigits whole decimal.fraction
  (digits, decimal.power + dropped.length + ignored.length - decimal.fraction.length)

/-- Whether the product of the leading digits and their power of ten is infinite, when the factors
and the product are rounded to doubles. -/
def productIsInfinite (decimal : Decimal) : Bool :=
  let (digits, power) := decimal.leading
  if digits = 0 || power < 0 then false
  else if 308 < power then true
  else overflowBound ≤ roundToDouble digits * roundToDouble (Nat.pow 10 power.toNat)

end Decimal

end ApiCatalog.Text
